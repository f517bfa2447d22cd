import Mathlib.Algebra.Ring.Nat
import Mathlib.Data.List.Dedup
import Mathlib.Data.List.Perm.Subperm
import StackSampler.Proofs.Stream.Encoding
import StackSampler.Proofs.Stream.Items

/-!
# Reading back what was encoded

Encoder and reader number texts and frames independently of each other: one by the order of first
use, the other by what the definitions say.  The invariant `Encoder.Agrees` relates the two tables.
Every record takes it from one state to the next, and the reader finds the record again on the way.

The main statement is `readAll_streamOf`: the stream of a list of records is read as these records,
with every reason under its name, and encodes to the same bytes again.
-/

namespace StackSampler

/-- The reason with the name of its code, if that code has one. -/
def FailureReason.named : FailureReason → FailureReason
  | .other 1 => .stale
  | .other 2 => .memory
  | .other 3 => .tooDeep
  | .other 4 => .nativeTimeout
  | .other 5 => .signal
  | .other 6 => .unknownThread
  | reason => reason

theorem FailureReason.ofCode_code (reason : FailureReason) :
    FailureReason.ofCode reason.code = reason.named := by
  cases reason with
  | other value =>
      unfold FailureReason.code FailureReason.ofCode
      split <;> simp_all [named]
  | _ => rfl

theorem FailureReason.code_named (reason : FailureReason) :
    reason.named.code = reason.code := by
  unfold named
  split <;> rfl

/-- A record in which a marker's reason is called by its name, if it has one. -/
def Record.named : Record → Record
  | .marker failed => .marker { failed with reason := failed.reason.named }
  | record => record

/-- The texts that a record shows. -/
def Record.texts : Record → List String
  | .threadName _ name => [name]
  | .sample taken => taken.frames.flatMap fun frame => [frame.name, frame.file]
  | _ => []

/-- The frames that a record shows. -/
def Record.frames : Record → List Frame
  | .sample taken => taken.frames
  | _ => []

theorem Record.texts_of_frame
    {record : Record} {frame : Frame} (member : frame ∈ record.frames) :
    frame.name ∈ record.texts ∧ frame.file ∈ record.texts := by
  cases record with
  | sample taken =>
      constructor
      · exact List.mem_flatMap.mpr ⟨frame, member, by simp⟩
      · exact List.mem_flatMap.mpr ⟨frame, member, by simp⟩
  | _ => exact absurd member List.not_mem_nil

end StackSampler

namespace StackSampler.Stream

/-! ## Numbering values -/

namespace Numbering

variable {α : Type}

theorem prefix_add (numbering : Numbering α) (value : α) :
    numbering.values <+: (numbering.add value).values :=
  List.prefix_append _ _

/--
The values of a numbering are distinct values of a domain, and a table holds each of them under its
number.
-/
structure Describes (numbering : Numbering α) (domain : List α)
    (table : Std.ExtTreeMap UInt32 α) : Prop where
  distinct : numbering.values.Nodup
  inside : numbering.values ⊆ domain
  defined : ∀ (index : Nat) (value : α), numbering.values[index]? = some value →
    table[UInt32.ofNat index]? = some value

theorem Describes.empty (domain : List α) : Describes ({} : Numbering α) domain ∅ where
  distinct := List.nodup_nil
  inside := List.nil_subset domain
  defined := by
    intro index value found
    simp at found

variable [DecidableEq α]

theorem numberOf?_eq_some_iff {numbering : Numbering α} {value : α} {number : UInt32} :
    numbering.numberOf? value = some number ↔
      ∃ index, numbering.values.idxOf? value = some index ∧ UInt32.ofNat index = number := by
  simp [numberOf?]

theorem numberOf?_eq_none_iff {numbering : Numbering α} {value : α} :
    numbering.numberOf? value = none ↔ value ∉ numbering.values := by
  simp [numberOf?]

/-- A number once given is kept when further values are numbered. -/
theorem numberOf?_of_prefix
    {old new : Numbering α} (grows : old.values <+: new.values) {value : α} {number : UInt32}
    (found : old.numberOf? value = some number) :
    new.numberOf? value = some number := by
  rcases numberOf?_eq_some_iff.mp found with ⟨index, place, rfl⟩
  rcases grows with ⟨added, appended⟩
  rcases List.idxOf?_eq_some_iff.mp place with ⟨inside, here, first⟩
  refine numberOf?_eq_some_iff.mpr ⟨index, List.idxOf?_eq_some_iff.mpr ?_, rfl⟩
  have insideNew : index < new.values.length := by
    rw [← appended, List.length_append]
    omega
  refine ⟨insideNew, ?_, ?_⟩
  · rw [← here]
    simp only [← appended, List.getElem_append_left inside]
  · intro earlier before
    have earlierInside : earlier < old.values.length := Nat.lt_trans before inside
    simp only [← appended, List.getElem_append_left earlierInside]
    exact first earlier before

theorem numberOf?_add_self
    {numbering : Numbering α} {value : α} (new : numbering.numberOf? value = none) :
    (numbering.add value).numberOf? value = some numbering.next := by
  have absent := numberOf?_eq_none_iff.mp new
  refine numberOf?_eq_some_iff.mpr
    ⟨numbering.values.length, List.idxOf?_eq_some_iff.mpr ?_, rfl⟩
  refine ⟨by simp [add], by simp [add], ?_⟩
  intro earlier before
  simp only [add, List.getElem_append_left before]
  exact fun equal => absent (equal ▸ List.getElem_mem before)

namespace Describes

variable {numbering : Numbering α} {domain : List α} {table : Std.ExtTreeMap UInt32 α}

theorem lookup (describes : numbering.Describes domain table) {value : α} {number : UInt32}
    (found : numbering.numberOf? value = some number) :
    table[number]? = some value := by
  rcases numberOf?_eq_some_iff.mp found with ⟨index, place, rfl⟩
  rcases List.idxOf?_eq_some_iff.mp place with ⟨inside, here, _⟩
  exact describes.defined index value (by rw [List.getElem?_eq_getElem inside, here])

/-- While a value of the domain has no number, there are numbers left. -/
theorem length_lt (describes : numbering.Describes domain table)
    (few : domain.dedup.length ≤ 2 ^ 32) {value : α} (member : value ∈ domain)
    (new : numbering.numberOf? value = none) :
    numbering.values.length < 2 ^ 32 := by
  have distinct : (value :: numbering.values).Nodup :=
    List.nodup_cons.mpr ⟨numberOf?_eq_none_iff.mp new, describes.distinct⟩
  have inside : (value :: numbering.values) ⊆ domain.dedup := by
    intro other otherMember
    rw [List.mem_dedup]
    rcases List.mem_cons.mp otherMember with rfl | old
    · exact member
    · exact describes.inside old
  have bounded := (List.subperm_of_subset distinct inside).length_le
  rw [List.length_cons] at bounded
  omega

/-- A new value may be defined under the next number. -/
theorem add (describes : numbering.Describes domain table)
    (few : domain.dedup.length ≤ 2 ^ 32) {value : α} (member : value ∈ domain)
    (new : numbering.numberOf? value = none) :
    (numbering.add value).Describes domain (table.insert numbering.next value) where
  distinct := by
    have absent := numberOf?_eq_none_iff.mp new
    simp only [Numbering.add]
    exact List.nodup_append.mpr
      ⟨describes.distinct, List.nodup_singleton value, by
        intro old oldMember other otherMember
        rw [List.mem_singleton] at otherMember
        subst other
        exact fun equal => absent (equal ▸ oldMember)⟩
  inside := by
    simp only [Numbering.add]
    exact List.append_subset.mpr ⟨describes.inside, by simpa using member⟩
  defined := by
    intro index other found
    have room := describes.length_lt few member new
    rw [Std.ExtTreeMap.getElem?_insert]
    rcases Nat.lt_or_ge index numbering.values.length with old | later
    -- There are too few values for the new number to wrap around onto an old one.
    · have different : compare numbering.next (UInt32.ofNat index) ≠ .eq := by
        intro equal
        have same := congrArg UInt32.toNat (Std.LawfulEqCmp.eq_of_compare equal)
        rw [Numbering.next, UInt32.toNat_ofNat', UInt32.toNat_ofNat'] at same
        omega
      rw [if_neg different]
      apply describes.defined
      rwa [Numbering.add, List.getElem?_append_left old] at found
    · rw [Numbering.add, List.getElem?_append_right later] at found
      have place : index = numbering.values.length := by
        have bound := (List.getElem?_eq_some_iff.mp found).1
        simp only [List.length_singleton] at bound
        omega
      subst index
      simp only [Nat.sub_self, List.getElem?_cons_zero] at found
      rw [Numbering.next, if_pos Std.ReflCmp.compare_self]
      exact found

end Describes

end Numbering

/-! ## Encoder and reader in step -/

/-- The texts and frames that a stream may show, as far as it can number and store them. -/
structure Vocabulary where
  texts : List String
  frames : List Frame
  shortTexts : ∀ text ∈ texts, (Text.utf8 text).length < 2 ^ 32
  fewTexts : texts.dedup.length ≤ 2 ^ 32
  fewFrames : frames.dedup.length ≤ 2 ^ 32
  frameTexts : ∀ frame ∈ frames, frame.name ∈ texts ∧ frame.file ∈ texts

namespace Encoder

/-- The tables of an encoder and of a reader say the same. -/
structure Agrees (vocabulary : Vocabulary) (encoder : Encoder) (known : Definitions) : Prop where
  texts : encoder.texts.Describes vocabulary.texts known.texts
  frames : encoder.frames.Describes vocabulary.frames known.frames

/-- Before the first record both tables are empty. -/
theorem agrees_empty (vocabulary : Vocabulary) : ({} : Encoder).Agrees vocabulary {} :=
  ⟨.empty vocabulary.texts, .empty vocabulary.frames⟩

/-- An encoder has numbered all that another one has, in the same way. -/
structure Extends (later encoder : Encoder) : Prop where
  texts : encoder.texts.values <+: later.texts.values
  frames : encoder.frames.values <+: later.frames.values

theorem Extends.refl (encoder : Encoder) : encoder.Extends encoder :=
  ⟨List.prefix_rfl, List.prefix_rfl⟩

theorem Extends.trans {last later encoder : Encoder}
    (second : last.Extends later) (first : later.Extends encoder) :
    last.Extends encoder :=
  ⟨first.texts.trans second.texts, first.frames.trans second.frames⟩

/--
Items that take an encoder to a later one take a reader that agrees with it to one that agrees with
the later one, and denote some records on the way.
-/
structure Advances (vocabulary : Vocabulary) (encoder : Encoder) (known : Definitions)
    (items : List Item) (records : List Record) (later : Encoder) (after : Definitions) :
    Prop where
  agrees : later.Agrees vocabulary after
  grows : later.Extends encoder
  fits : ∀ entry ∈ items, entry.Fits
  denotes : denoteAll known items = some (records, after)

namespace Advances

variable {vocabulary : Vocabulary} {encoder middle later : Encoder}
  {known between after : Definitions} {front back : List Item} {early late : List Record}

theorem nil (agrees : encoder.Agrees vocabulary known) :
    Advances vocabulary encoder known [] [] encoder known :=
  ⟨agrees, .refl encoder, by simp, rfl⟩

theorem append
    (first : Advances vocabulary encoder known front early middle between)
    (second : Advances vocabulary middle between back late later after) :
    Advances vocabulary encoder known (front ++ back) (early ++ late) later after where
  agrees := second.agrees
  grows := second.grows.trans first.grows
  fits := by
    intro entry member
    rcases List.mem_append.mp member with inFront | inBack
    · exact first.fits entry inFront
    · exact second.fits entry inBack
  denotes := denoteAll_append first.denotes second.denotes

/-- An item that makes no definition leaves both tables as they are. -/
theorem single (agrees : encoder.Agrees vocabulary known) {entry : Item} {record : Record}
    (fits : entry.Fits) (denotes : entry.denote known = some (some record, known)) :
    Advances vocabulary encoder known [entry] [record] encoder known where
  agrees := agrees
  grows := .refl encoder
  fits := by simpa using fits
  denotes := by simp [denoteAll, denotes]

end Advances

variable {vocabulary : Vocabulary} {encoder later : Encoder} {known : Definitions}
  {items : List Item}

theorem text_frames
    {value : String} {number : UInt32} (ran : encoder.text value = (number, items, later)) :
    later.frames = encoder.frames := by
  rw [text] at ran
  split at ran
  · rcases ran with ⟨_, _, rfl⟩
    rfl
  · rcases ran with ⟨_, _, rfl⟩
    rfl

/-- A text is defined if it is new, and has its number from then on. -/
theorem text_advances
    (agrees : encoder.Agrees vocabulary known) {value : String}
    (member : value ∈ vocabulary.texts) {number : UInt32}
    (ran : encoder.text value = (number, items, later)) :
    later.texts.numberOf? value = some number ∧
      ∃ after, Advances vocabulary encoder known items [] later after := by
  rw [text] at ran
  cases found : encoder.texts.numberOf? value with
  | some given =>
      rw [found] at ran
      rcases ran with ⟨rfl, rfl, rfl⟩
      exact ⟨found, known, .nil agrees⟩
  | none =>
      rw [found] at ran
      rcases ran with ⟨rfl, rfl, rfl⟩
      refine ⟨Numbering.numberOf?_add_self found,
        { known with texts := known.texts.insert encoder.texts.next value }, ?_⟩
      constructor
      · exact ⟨agrees.texts.add vocabulary.fewTexts member found, agrees.frames⟩
      · exact ⟨Numbering.prefix_add _ _, List.prefix_rfl⟩
      · simpa [Item.Fits] using vocabulary.shortTexts value member
      · rfl

/-- A frame is defined after its texts if it is new, and has its number from then on. -/
theorem frame_advances
    (agrees : encoder.Agrees vocabulary known) {value : Frame}
    (member : value ∈ vocabulary.frames) {number : UInt32}
    (ran : encoder.frame value = (number, items, later)) :
    later.frames.numberOf? value = some number ∧
      ∃ after, Advances vocabulary encoder known items [] later after := by
  rw [frame] at ran
  cases found : encoder.frames.numberOf? value with
  | some given =>
      rw [found] at ran
      rcases ran with ⟨rfl, rfl, rfl⟩
      exact ⟨found, known, .nil agrees⟩
  | none =>
      rw [found] at ran
      rcases vocabulary.frameTexts value member with ⟨nameIn, fileIn⟩
      rcases nameRan : encoder.text value.name with ⟨name, nameItems, named⟩
      rcases fileRan : named.text value.file with ⟨file, fileItems, filed⟩
      simp only [nameRan, fileRan, Prod.mk.injEq] at ran
      rcases ran with ⟨rfl, rfl, rfl⟩
      rcases text_advances agrees nameIn nameRan with ⟨nameNumber, afterName, nameAdvances⟩
      rcases text_advances nameAdvances.agrees fileIn fileRan with
        ⟨fileNumber, afterFile, fileAdvances⟩
      have framesKept : filed.frames = encoder.frames :=
        (text_frames fileRan).trans (text_frames nameRan)
      have new : filed.frames.numberOf? value = none := by rw [framesKept, found]
      have nameDefined : afterFile.texts[name]? = some value.name :=
        fileAdvances.agrees.texts.lookup
          (Numbering.numberOf?_of_prefix fileAdvances.grows.texts nameNumber)
      have fileDefined : afterFile.texts[file]? = some value.file :=
        fileAdvances.agrees.texts.lookup fileNumber
      refine ⟨Numbering.numberOf?_add_self new,
        { afterFile with frames := afterFile.frames.insert filed.frames.next value }, ?_⟩
      refine (nameAdvances.append fileAdvances).append ?_
      constructor
      · exact ⟨fileAdvances.agrees.texts,
          fileAdvances.agrees.frames.add vocabulary.fewFrames member new⟩
      · exact ⟨List.prefix_rfl, Numbering.prefix_add _ _⟩
      · simp [Item.Fits]
      · simp [denoteAll, Item.denote, nameDefined, fileDefined]

/-- The frames of a stack are defined as far as they are new, and all have their numbers then. -/
theorem frameList_advances
    (agrees : encoder.Agrees vocabulary known) {values : List Frame}
    (members : values ⊆ vocabulary.frames) {numbers : List UInt32}
    (ran : encoder.frameList values = (numbers, items, later)) :
    numbers.length = values.length ∧
      ∃ after, Advances vocabulary encoder known items [] later after ∧
        after.framesOf? numbers = some values := by
  induction values generalizing encoder known numbers items with
  | nil =>
      rcases ran with ⟨rfl, rfl, rfl⟩
      exact ⟨rfl, known, .nil agrees, rfl⟩
  | cons value rest induction =>
      rcases firstRan : encoder.frame value with ⟨number, front, middle⟩
      rcases restRan : middle.frameList rest with ⟨others, back, last⟩
      simp only [frameList, firstRan, restRan, Prod.mk.injEq] at ran
      rcases ran with ⟨rfl, rfl, rfl⟩
      rcases List.cons_subset.mp members with ⟨firstIn, restIn⟩
      rcases frame_advances agrees firstIn firstRan with ⟨firstNumber, between, firstAdvances⟩
      rcases induction firstAdvances.agrees restIn restRan with
        ⟨sameLength, after, restAdvances, restDefined⟩
      have firstDefined : after.frames[number]? = some value :=
        restAdvances.agrees.frames.lookup
          (Numbering.numberOf?_of_prefix restAdvances.grows.frames firstNumber)
      refine ⟨by simp [sameLength], after, firstAdvances.append restAdvances, ?_⟩
      simp [Definitions.framesOf?, firstDefined, restDefined]

/-- What a record needs so that a stream of a vocabulary can show it. -/
structure Shows (vocabulary : Vocabulary) (record : Record) : Prop where
  texts : record.texts ⊆ vocabulary.texts
  frames : record.frames ⊆ vocabulary.frames
  shortStack : record.frames.length < 2 ^ 32

/-- The items of a record denote this record, its reason under its name. -/
theorem items_advance
    (agrees : encoder.Agrees vocabulary known) {record : Record}
    (shows : Shows vocabulary record) (ran : encoder.items record = (items, later)) :
    ∃ after, Advances vocabulary encoder known items [record.named] later after := by
  cases record with
  | header start =>
      rcases ran with ⟨rfl, rfl⟩
      exact ⟨known, .single agrees trivial rfl⟩
  | threadName thread name =>
      rcases nameRan : encoder.text name with ⟨number, front, middle⟩
      simp only [Encoder.items, nameRan, Prod.mk.injEq] at ran
      rcases ran with ⟨rfl, rfl⟩
      have nameIn : name ∈ vocabulary.texts := shows.texts (List.mem_singleton_self name)
      rcases text_advances agrees nameIn nameRan with ⟨nameNumber, after, nameAdvances⟩
      have defined := nameAdvances.agrees.texts.lookup nameNumber
      exact ⟨after, nameAdvances.append
        (.single nameAdvances.agrees trivial (by simp [Item.denote, defined, Record.named]))⟩
  | sample taken =>
      rcases framesRan : encoder.frameList taken.frames with ⟨numbers, front, middle⟩
      simp only [Encoder.items, framesRan, Prod.mk.injEq] at ran
      rcases ran with ⟨rfl, rfl⟩
      rcases frameList_advances agrees shows.frames framesRan with
        ⟨sameLength, after, framesAdvance, defined⟩
      have short : numbers.length < 2 ^ 32 := sameLength ▸ shows.shortStack
      have stackDefined : after.framesOf? numbers = some taken.frames := defined
      exact ⟨after, framesAdvance.append
        (.single framesAdvance.agrees short (by simp [Item.denote, stackDefined, Record.named]))⟩
  | marker failed =>
      rcases ran with ⟨rfl, rfl⟩
      exact ⟨known, .single agrees trivial
        (by simp [Item.denote, FailureReason.ofCode_code, Record.named])⟩

/-- The items of several records denote these records. -/
theorem itemsEach_advance
    (agrees : encoder.Agrees vocabulary known) {records : List Record}
    (shows : ∀ record ∈ records, Shows vocabulary record) :
    ∃ after, Advances vocabulary encoder known (encoder.itemsEach records)
      (records.map Record.named) (encoder.encodeEach records).2 after := by
  induction records generalizing encoder known with
  | nil => exact ⟨known, .nil agrees⟩
  | cons record rest induction =>
      rcases ran : encoder.items record with ⟨front, middle⟩
      rcases items_advance agrees (shows record List.mem_cons_self) ran with
        ⟨between, firstAdvances⟩
      rcases induction firstAdvances.agrees
          (fun other member => shows other (List.mem_cons_of_mem _ member)) with
        ⟨after, restAdvances⟩
      refine ⟨after, ?_⟩
      simp only [itemsEach, encodeEach, encode, ran, List.map_cons]
      exact firstAdvances.append restAdvances

/-- The chunks of several records are the bytes of items that denote these records. -/
theorem encodeEach_advances
    (agrees : encoder.Agrees vocabulary known) {records : List Record}
    (shows : ∀ record ∈ records, Shows vocabulary record) :
    ∃ items after,
      (encoder.encodeEach records).1.flatten = items.flatMap Item.bytes ∧
        Advances vocabulary encoder known items (records.map Record.named)
          (encoder.encodeEach records).2 after := by
  rcases itemsEach_advance agrees shows with ⟨after, advances⟩
  exact ⟨encoder.itemsEach records, after, flatten_encodeEach encoder records, advances⟩

/-- The name of a reason makes no difference to what is written. -/
theorem encodeEach_named (encoder : Encoder) (records : List Record) :
    encoder.encodeEach (records.map Record.named) = encoder.encodeEach records := by
  induction records generalizing encoder with
  | nil => rfl
  | cons record rest induction =>
      have same : encoder.encode record.named = encoder.encode record := by
        cases record with
        | marker failed =>
            simp [encode, Encoder.items, Record.named, FailureReason.code_named]
        | _ => rfl
      simp only [List.map_cons, encodeEach, same, induction]

end Encoder

/-! ## The round trip -/

/--
What a list of records needs to be stored: texts and stacks whose lengths fit into four bytes, and
no more distinct texts and distinct frames than there are numbers.
-/
structure Storable (records : List Record) : Prop where
  shortTexts : ∀ text ∈ records.flatMap Record.texts, (Text.utf8 text).length < 2 ^ 32
  fewTexts : (records.flatMap Record.texts).dedup.length ≤ 2 ^ 32
  fewFrames : (records.flatMap Record.frames).dedup.length ≤ 2 ^ 32
  shortStacks : ∀ record ∈ records, record.frames.length < 2 ^ 32

/-- The vocabulary of storable records. -/
def Storable.vocabulary {records : List Record} (storable : Storable records) : Vocabulary where
  texts := records.flatMap Record.texts
  frames := records.flatMap Record.frames
  shortTexts := storable.shortTexts
  fewTexts := storable.fewTexts
  fewFrames := storable.fewFrames
  frameTexts := by
    intro frame member
    rcases List.mem_flatMap.mp member with ⟨record, recordIn, frameIn⟩
    rcases Record.texts_of_frame frameIn with ⟨nameIn, fileIn⟩
    exact ⟨List.mem_flatMap.mpr ⟨record, recordIn, nameIn⟩,
      List.mem_flatMap.mpr ⟨record, recordIn, fileIn⟩⟩

theorem Storable.shows
    {records : List Record} (storable : Storable records) {record : Record}
    (member : record ∈ records) :
    Encoder.Shows storable.vocabulary record where
  texts := fun _ textIn => List.mem_flatMap.mpr ⟨record, member, textIn⟩
  frames := fun _ frameIn => List.mem_flatMap.mpr ⟨record, member, frameIn⟩
  shortStack := storable.shortStacks record member

/--
The stream of storable records is read as exactly these records, each reason under its name, and
these encode to the same stream again.
-/
theorem readAll_streamOf {records : List Record} (storable : Storable records) :
    Reader.readAll .memory (streamOf records) = .ok (records.map Record.named) ∧
      streamOf (records.map Record.named) = streamOf records := by
  have agrees : ({} : Encoder).Agrees storable.vocabulary {} :=
    ⟨.empty _, .empty _⟩
  rcases Encoder.encodeEach_advances agrees fun record member => storable.shows member with
    ⟨items, after, bytes, advances⟩
  constructor
  · rw [streamOf, bytes]
    exact readAll_of_denoteAll advances.fits advances.denotes
  · rw [streamOf, streamOf, Encoder.encodeEach_named]

/-- A short profile with records of every kind, repeated values and a reason given by its code. -/
def shortProfile : List Record :=
  let frame := Frame.interpreted "alloc" "app.py" 2
  [.header ⟨.memory, 1000, 4242, 1700000000⟩,
    .threadName 7 "alloc",
    .sample ⟨7, some 161, .allocation 4096 64, [frame, .taskBoundary "Task-1", frame]⟩,
    .sample ⟨7, none, .free 4096 64, [frame]⟩,
    .marker ⟨8, .other 3⟩,
    .marker ⟨8, .other 9⟩]

theorem shortProfile_storable : Storable shortProfile where
  shortTexts := by decide +kernel
  fewTexts := by decide +kernel
  fewFrames := by decide +kernel
  shortStacks := by decide +kernel

theorem readAll_streamOf_shortProfile :
    Storable shortProfile ∧
      Reader.readAll .memory (streamOf shortProfile) = .ok (shortProfile.map Record.named) ∧
      streamOf (shortProfile.map Record.named) = streamOf shortProfile :=
  ⟨shortProfile_storable, readAll_streamOf shortProfile_storable⟩

end StackSampler.Stream
