import StackSampler.Stream.Item

/-!
# Encoding records

The encoder turns each record into items.  A text or frame seen for the first time is defined
before the item that refers to it, under the next free number, so the number of a value is its
place in the order of first use.
-/

namespace StackSampler.Stream

/-- The values that already have a number, in the order of their numbers. -/
structure Numbering (α : Type) where
  values : List α := []

namespace Numbering

variable {α : Type}

/-- The number of a value, if it has one. -/
def numberOf? [BEq α] (numbering : Numbering α) (value : α) : Option UInt32 :=
  (numbering.values.idxOf? value).map UInt32.ofNat

/-- The next free number. -/
def next (numbering : Numbering α) : UInt32 :=
  UInt32.ofNat numbering.values.length

/-- Gives a value the next free number. -/
def add (numbering : Numbering α) (value : α) : Numbering α :=
  ⟨numbering.values ++ [value]⟩

end Numbering

/-- The texts and frames defined so far. -/
structure Encoder where
  texts : Numbering String := {}
  frames : Numbering Frame := {}

namespace Encoder

/-- The number of a text, with the item that defines it if it is new. -/
def text (encoder : Encoder) (value : String) : UInt32 × List Item × Encoder :=
  match encoder.texts.numberOf? value with
  | some number => (number, [], encoder)
  | none =>
      let number := encoder.texts.next
      (number, [.text number value], { encoder with texts := encoder.texts.add value })

/-- The number of a frame, with the items that define it and its texts as far as they are new. -/
def frame (encoder : Encoder) (value : Frame) : UInt32 × List Item × Encoder :=
  match encoder.frames.numberOf? value with
  | some number => (number, [], encoder)
  | none =>
      let (name, nameItems, encoder) := encoder.text value.name
      let (file, fileItems, encoder) := encoder.text value.file
      let number := encoder.frames.next
      (number, nameItems ++ fileItems ++ [.frame number name file value.line value.kind],
        { encoder with frames := encoder.frames.add value })

/-- The numbers of several frames, with the items that define what is new among them. -/
def frameList (encoder : Encoder) : List Frame → List UInt32 × List Item × Encoder
  | [] => ([], [], encoder)
  | value :: rest =>
      let (number, items, encoder) := encoder.frame value
      let (numbers, more, encoder) := encoder.frameList rest
      (number :: numbers, items ++ more, encoder)

/-- The items of a record: the definitions it needs, then its own. -/
def items (encoder : Encoder) : Record → List Item × Encoder
  | .header header => ([.header header], encoder)
  | .threadName thread name =>
      let (number, items, encoder) := encoder.text name
      (items ++ [.threadName thread number], encoder)
  | .sample sample =>
      let (numbers, items, encoder) := encoder.frameList sample.frames
      (items ++ [.sample sample.thread sample.task sample.metric numbers], encoder)
  | .marker marker => ([.marker marker.thread marker.reason.code], encoder)

/-- The bytes that a record adds to the stream. -/
def encode (encoder : Encoder) (record : Record) : List UInt8 × Encoder :=
  let (items, encoder) := encoder.items record
  (items.flatMap Item.bytes, encoder)

/-- The bytes of each of several records in turn. -/
def encodeEach (encoder : Encoder) : List Record → List (List UInt8) × Encoder
  | [] => ([], encoder)
  | record :: rest =>
      let (chunk, encoder) := encoder.encode record
      let (chunks, encoder) := encoder.encodeEach rest
      (chunk :: chunks, encoder)

end Encoder

/-- The whole stream of a list of records. -/
def streamOf (records : List Record) : List UInt8 :=
  preamble ++ (({} : Encoder).encodeEach records).1.flatten

end StackSampler.Stream
