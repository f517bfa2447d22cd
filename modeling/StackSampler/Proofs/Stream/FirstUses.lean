import Mathlib.Data.List.Induction
import StackSampler.Proofs.Stream.Grammar
import StackSampler.Proofs.Stream.RoundTrip

/-!
# Where definitions stand

A stream defines each text and each frame once, in front of the first record that shows it.  The
values that are defined are those in use, in the order of their first uses, so their numbers are
0, 1, 2 and so on.

`Writes` says this of the items of one part of a stream, given what was used before; it holds of the
definition of a text, of a frame and of a record, and of several records in turn.  The main
statement is `definitions_first_used`.
-/

namespace StackSampler.Stream

/-! ## First uses -/

section

variable {α : Type} [DecidableEq α]

/-- The values that are used for the first time, each once, in the order of their first uses. -/
def firstUses (used more : List α) : List α :=
  (more.removeAll used).eraseDups

theorem eraseDups_append_firstUses (used more : List α) :
    (used ++ more).eraseDups = used.eraseDups ++ firstUses used more :=
  List.eraseDups_append

theorem firstUses_append (used first second : List α) :
    firstUses used (first ++ second) =
      firstUses used first ++ firstUses (used ++ first) second := by
  have apart : (second.removeAll used).removeAll (first.removeAll used) =
      second.removeAll (used ++ first) := by
    simp only [List.removeAll, List.filter_filter]
    refine List.filter_congr fun value _ => ?_
    by_cases old : value ∈ used <;> simp [old]
  rw [firstUses, List.removeAll, List.filter_append, List.eraseDups_append]
  exact congrArg (_ ++ List.eraseDups ·) apart

theorem firstUses_eq_nil {used more : List α} (old : more ⊆ used) : firstUses used more = [] := by
  have none : more.removeAll used = [] := by
    simpa [List.removeAll] using fun value member => old member
  rw [firstUses, none, List.eraseDups_nil]

theorem firstUses_new {used : List α} {value : α} (new : value ∉ used) :
    firstUses used [value] = [value] := by
  simp [firstUses, List.removeAll, new, List.eraseDups_cons]

theorem nodup_eraseDups (values : List α) : values.eraseDups.Nodup := by
  induction values using List.reverseRecOn with
  | nil => exact List.nodup_nil
  | append_singleton values value induction =>
      rw [eraseDups_append_firstUses]
      by_cases old : value ∈ values
      · rw [firstUses_eq_nil (by simpa using old), List.append_nil]
        exact induction
      · rw [firstUses_new old, List.nodup_append]
        refine ⟨induction, List.nodup_singleton value, ?_⟩
        intro other member last isLast same
        rw [same, List.mem_singleton.mp isLast] at member
        exact old (List.mem_eraseDups.mp member)

end

/-! ## Consecutive numbers -/

section

variable {α : Type}

/-- Values with consecutive numbers, from one on. -/
def numbered : Nat → List α → List (UInt32 × α)
  | _, [] => []
  | next, value :: rest => (UInt32.ofNat next, value) :: numbered (next + 1) rest

theorem numbered_append (next : Nat) (first second : List α) :
    numbered next (first ++ second) =
      numbered next first ++ numbered (next + first.length) second := by
  induction first generalizing next with
  | nil => rfl
  | cons value rest induction =>
      rw [List.cons_append, numbered, numbered, induction, List.length_cons, List.cons_append,
        Nat.add_assoc, Nat.add_comm 1]

/-- Definitions whose numbers are 0, 1, 2 and so on, and whose values are pairwise different. -/
structure Dense (definitions : List (UInt32 × α)) : Prop where
  numbers : definitions.map (fun definition => definition.1.toNat) = List.range definitions.length
  values : (definitions.map Prod.snd).Nodup

theorem numbers_numbered (next : Nat) (values : List α) (room : next + values.length ≤ 2 ^ 32) :
    (numbered next values).map (fun definition => definition.1.toNat) =
      List.range' next values.length := by
  induction values generalizing next with
  | nil => rfl
  | cons value rest induction =>
      rw [List.length_cons] at room ⊢
      have same : (UInt32.ofNat next).toNat = next := by
        rw [UInt32.toNat_ofNat']
        exact Nat.mod_eq_of_lt (by omega)
      rw [numbered, List.map_cons, induction (next + 1) (by omega), same, List.range'_succ]

theorem values_numbered (next : Nat) (values : List α) :
    (numbered next values).map Prod.snd = values := by
  induction values generalizing next with
  | nil => rfl
  | cons value rest induction => rw [numbered, List.map_cons, induction]

theorem dense_numbered {values : List α} (room : values.length ≤ 2 ^ 32) (apart : values.Nodup) :
    Dense (numbered 0 values) where
  numbers := by
    have same := congrArg List.length (values_numbered 0 values)
    rw [List.length_map] at same
    rw [numbers_numbered 0 values (by omega), same, List.range_eq_range']
  values := by rwa [values_numbered]

end

namespace Numbering

variable {α : Type} [DecidableEq α] {numbering : Numbering α} {value other : α} {number : UInt32}

theorem mem_of_numberOf? (found : numbering.numberOf? value = some number) :
    value ∈ numbering.values := by
  by_contra absent
  rw [numberOf?_eq_none_iff.mpr absent] at found
  cases found

/-- While there are numbers left, a new number is no other value's. -/
theorem numberOf?_add_cases (new : numbering.numberOf? value = none)
    (room : numbering.values.length < 2 ^ 32)
    (found : (numbering.add value).numberOf? other = some number) :
    other = value ∧ number = numbering.next ∨
      numbering.numberOf? other = some number ∧ number ≠ numbering.next := by
  cases old : numbering.numberOf? other with
  | none =>
      left
      have same : other = value := by
        rcases List.mem_append.mp (mem_of_numberOf? found) with given | here
        · exact absurd given (numberOf?_eq_none_iff.mp old)
        · exact List.mem_singleton.mp here
      subst same
      rw [numberOf?_add_self new] at found
      exact ⟨rfl, (Option.some.inj found).symm⟩
  | some given =>
      right
      have kept := numberOf?_of_prefix (prefix_add numbering value) old
      rw [kept] at found
      refine ⟨found, ?_⟩
      rcases numberOf?_eq_some_iff.mp old with ⟨index, place, rfl⟩
      have inside := (List.idxOf?_eq_some_iff.mp place).1
      rw [← Option.some.inj found, next]
      intro same
      have equal := congrArg UInt32.toNat same
      rw [UInt32.toNat_ofNat', UInt32.toNat_ofNat'] at equal
      omega

variable {used more : List α}

/-- If a numbering counts the values in use, in the order of first uses, no other has a number. -/
theorem mem_used (counts : numbering.values = used.eraseDups)
    (found : numbering.numberOf? value = some number) : value ∈ used := by
  rw [← List.mem_eraseDups, ← counts]
  exact mem_of_numberOf? found

/-- A value without a number has not been used. -/
theorem firstUses_of_new (counts : numbering.values = used.eraseDups)
    (new : numbering.numberOf? value = none) : firstUses used [value] = [value] := by
  refine firstUses_new ?_
  rw [← List.mem_eraseDups, ← counts]
  exact numberOf?_eq_none_iff.mp new

theorem counts_add (counts : numbering.values = used.eraseDups)
    (new : numbering.numberOf? value = none) :
    (numbering.add value).values = (used ++ [value]).eraseDups := by
  rw [eraseDups_append_firstUses, firstUses_of_new counts new, ← counts]
  rfl

/-- There is a number left for a new value, since it is among those that fit. -/
theorem room_of_fit (counts : numbering.values = used.eraseDups)
    (new : numbering.numberOf? value = none)
    (fit : (used ++ [value]).eraseDups.length ≤ 2 ^ 32) : numbering.values.length < 2 ^ 32 := by
  rw [← counts_add counts new, add, List.length_append, List.length_singleton] at fit
  omega

/-- A value keeps its number when more is in use. -/
theorem numberOf?_of_counts {later : Numbering α} (counts : numbering.values = used.eraseDups)
    (countsMore : later.values = (used ++ more).eraseDups)
    (found : numbering.numberOf? value = some number) : later.numberOf? value = some number := by
  refine numberOf?_of_prefix ?_ found
  rw [counts, countsMore, eraseDups_append_firstUses]
  exact List.prefix_append _ _

end Numbering

/-! ## Definitions in a stream -/

/-- The numbers and texts of the text definitions among some items. -/
def textDefinitions : List Item → List (UInt32 × String)
  | [] => []
  | .text number value :: rest => (number, value) :: textDefinitions rest
  | _ :: rest => textDefinitions rest

/--
The numbers of the frame definitions among some items behind `earlier` ones, of which the last one
comes first, and what each of them stands for.
-/
def frameDefinitions (earlier : List Item) : List Item → List (UInt32 × Option Frame)
  | [] => []
  | .frame number name file line kind :: rest =>
      (number, latestFrame? number (.frame number name file line kind :: earlier)) ::
        frameDefinitions (.frame number name file line kind :: earlier) rest
  | entry :: rest => frameDefinitions (entry :: earlier) rest

theorem textDefinitions_append (front back : List Item) :
    textDefinitions (front ++ back) = textDefinitions front ++ textDefinitions back := by
  induction front with
  | nil => rfl
  | cons entry rest induction =>
      cases entry <;> simp only [List.cons_append, textDefinitions, induction]

theorem frameDefinitions_append (earlier front back : List Item) :
    frameDefinitions earlier (front ++ back) =
      frameDefinitions earlier front ++ frameDefinitions (front.reverse ++ earlier) back := by
  induction front generalizing earlier with
  | nil => rfl
  | cons entry rest induction =>
      cases entry <;>
        simp only [List.cons_append, frameDefinitions, induction, List.reverse_cons,
          List.append_assoc, List.nil_append]

theorem Denotes.append {earlier front back : List Item} {early late : List Record}
    (first : Denotes earlier front early) (second : Denotes (front.reverse ++ earlier) back late) :
    Denotes earlier (front ++ back) (early ++ late) := by
  induction first with
  | nil => exact second
  | cons means _ induction =>
      rw [List.append_assoc]
      refine .cons means (induction ?_)
      simpa using second

/-- The texts and frames that some records show, one by one. -/
structure Uses where
  texts : List String
  frames : List Frame

namespace Uses

/-- What is shown first, and then more. -/
def andThen (uses more : Uses) : Uses :=
  ⟨uses.texts ++ more.texts, uses.frames ++ more.frames⟩

/-- What is shown has been shown before. -/
structure Known (more uses : Uses) : Prop where
  texts : more.texts ⊆ uses.texts
  frames : more.frames ⊆ uses.frames

/-- The distinct texts, and the distinct frames, are no more than there are numbers. -/
structure Fit (uses : Uses) : Prop where
  texts : uses.texts.eraseDups.length ≤ 2 ^ 32
  frames : uses.frames.eraseDups.length ≤ 2 ^ 32

theorem andThen_assoc (uses more others : Uses) :
    (uses.andThen more).andThen others = uses.andThen (more.andThen others) := by
  simp only [andThen, List.append_assoc]

theorem Fit.front {uses more : Uses} (fit : (uses.andThen more).Fit) : uses.Fit := by
  have texts := fit.texts
  have frames := fit.frames
  rw [andThen, eraseDups_append_firstUses, List.length_append] at texts frames
  exact ⟨by omega, by omega⟩

end Uses

/-- What records show. -/
def usesOf (records : List Record) : Uses :=
  ⟨records.flatMap Record.texts, records.flatMap Record.frames⟩

namespace Encoder

/--
An encoder has numbered what was used, in the order of first uses, and each number stands for its
value behind the items written so far, of which the last one comes first.
-/
structure Stands (encoder : Encoder) (uses : Uses) (earlier : List Item) : Prop where
  texts : encoder.texts.values = uses.texts.eraseDups
  frames : encoder.frames.values = uses.frames.eraseDups
  closed : ∀ frame ∈ uses.frames, frame.name ∈ uses.texts ∧ frame.file ∈ uses.texts
  textsDefined : ∀ number value, encoder.texts.numberOf? value = some number →
    latestText? number earlier = some value
  framesDefined : ∀ number value, encoder.frames.numberOf? value = some number →
    latestFrame? number earlier = some value

/--
Items that define what is used for the first time among some uses, and nothing else, in this order
and under the next numbers; each refers to what is defined before it.
-/
structure Writes (uses : Uses) (earlier : List Item) (more : Uses) (items : List Item)
    (later : Encoder) : Prop where
  stands : later.Stands (uses.andThen more) (items.reverse ++ earlier)
  texts : textDefinitions items =
    numbered uses.texts.eraseDups.length (firstUses uses.texts more.texts)
  frames : frameDefinitions earlier items =
    numbered uses.frames.eraseDups.length ((firstUses uses.frames more.frames).map some)
  means : Denotes earlier items []

variable {encoder middle later : Encoder} {uses more others : Uses} {earlier items : List Item}

/-- What has been used before needs no definition. -/
theorem Stands.again (stands : encoder.Stands uses earlier) (known : more.Known uses) :
    Writes uses earlier more [] encoder where
  stands :=
    { stands with
      texts := by
        rw [Uses.andThen, eraseDups_append_firstUses, firstUses_eq_nil known.texts,
          List.append_nil]
        exact stands.texts
      frames := by
        rw [Uses.andThen, eraseDups_append_firstUses, firstUses_eq_nil known.frames,
          List.append_nil]
        exact stands.frames
      closed := by
        intro frame member
        have old : frame ∈ uses.frames := by
          rcases List.mem_append.mp member with old | again
          · exact old
          · exact known.frames again
        rcases stands.closed frame old with ⟨name, file⟩
        exact ⟨List.mem_append_left _ name, List.mem_append_left _ file⟩ }
  texts := by rw [firstUses_eq_nil known.texts]; rfl
  frames := by rw [firstUses_eq_nil known.frames]; rfl
  means := .nil

theorem Writes.append {front back : List Item} (first : Writes uses earlier more front middle)
    (second : Writes (uses.andThen more) (front.reverse ++ earlier) others back later) :
    Writes uses earlier (more.andThen others) (front ++ back) later where
  stands := by
    have stands := second.stands
    simpa only [Uses.andThen, List.append_assoc, List.reverse_append] using stands
  texts := by
    rw [textDefinitions_append, first.texts, second.texts, Uses.andThen, Uses.andThen,
      firstUses_append, numbered_append, eraseDups_append_firstUses, List.length_append]
  frames := by
    rw [frameDefinitions_append, first.frames, second.frames, Uses.andThen, Uses.andThen,
      firstUses_append, List.map_append, numbered_append, eraseDups_append_firstUses,
      List.length_append, List.length_map]
  means := first.means.append second.means

/-- A new text is defined. -/
theorem Stands.defineText (stands : encoder.Stands uses earlier) {value : String}
    (new : encoder.texts.numberOf? value = none) (fit : (uses.andThen ⟨[value], []⟩).Fit) :
    Writes uses earlier ⟨[value], []⟩ [.text encoder.texts.next value]
      { encoder with texts := encoder.texts.add value } := by
  have room := Numbering.room_of_fit stands.texts new fit.texts
  refine ⟨⟨?_, ?_, ?_, ?_, ?_⟩, ?_, rfl, .cons (.text _ _) .nil⟩
  · exact Numbering.counts_add stands.texts new
  · rw [Uses.andThen, List.append_nil]
    exact stands.frames
  · intro frame member
    rw [Uses.andThen, List.append_nil] at member
    rcases stands.closed frame member with ⟨name, file⟩
    exact ⟨List.mem_append_left _ name, List.mem_append_left _ file⟩
  · intro number other found
    rcases Numbering.numberOf?_add_cases new room found with ⟨rfl, rfl⟩ | ⟨old, apart⟩
    · exact if_pos rfl
    · exact (if_neg (Ne.symm apart)).trans (stands.textsDefined number other old)
  · exact stands.framesDefined
  · rw [Numbering.firstUses_of_new stands.texts new, ← stands.texts]
    rfl

/-- A new frame is defined, once its texts are. -/
theorem Stands.defineFrame (stands : encoder.Stands uses earlier) {value : Frame}
    (new : encoder.frames.numberOf? value = none) (fit : (uses.andThen ⟨[], [value]⟩).Fit)
    {name file : UInt32} (nameNumber : encoder.texts.numberOf? value.name = some name)
    (fileNumber : encoder.texts.numberOf? value.file = some file) :
    Writes uses earlier ⟨[], [value]⟩
      [.frame encoder.frames.next name file value.line value.kind]
      { encoder with frames := encoder.frames.add value } := by
  have room := Numbering.room_of_fit stands.frames new fit.frames
  have nameDefined := stands.textsDefined name value.name nameNumber
  have fileDefined := stands.textsDefined file value.file fileNumber
  have isFrame : latestFrame? encoder.frames.next
      (.frame encoder.frames.next name file value.line value.kind :: earlier) = some value := by
    rw [latestFrame?, if_pos rfl, nameDefined, fileDefined]
    rfl
  refine ⟨⟨?_, ?_, ?_, ?_, ?_⟩, rfl, ?_, .cons (.frame _ _ _ _ _ nameDefined fileDefined) .nil⟩
  · rw [Uses.andThen, List.append_nil]
    exact stands.texts
  · exact Numbering.counts_add stands.frames new
  · intro frame member
    rw [Uses.andThen, List.append_nil]
    rcases List.mem_append.mp member with old | here
    · exact stands.closed frame old
    · rw [List.mem_singleton.mp here]
      exact ⟨Numbering.mem_used stands.texts nameNumber,
        Numbering.mem_used stands.texts fileNumber⟩
  · exact stands.textsDefined
  · intro number other found
    rcases Numbering.numberOf?_add_cases new room found with ⟨rfl, rfl⟩ | ⟨old, apart⟩
    · exact isFrame
    · exact (if_neg (Ne.symm apart)).trans (stands.framesDefined number other old)
  · rw [Numbering.firstUses_of_new stands.frames new, ← stands.frames, frameDefinitions, isFrame]
    rfl

theorem text_writes (stands : encoder.Stands uses earlier) {value : String} {number : UInt32}
    (fit : (uses.andThen ⟨[value], []⟩).Fit)
    (ran : encoder.text value = (number, items, later)) :
    Writes uses earlier ⟨[value], []⟩ items later ∧
      later.texts.numberOf? value = some number ∧ later.frames = encoder.frames := by
  rw [text] at ran
  cases found : encoder.texts.numberOf? value with
  | some given =>
      rw [found] at ran
      rcases ran with ⟨rfl, rfl, rfl⟩
      have old := Numbering.mem_used stands.texts found
      exact ⟨stands.again ⟨by simpa using old, List.nil_subset _⟩, found, rfl⟩
  | none =>
      rw [found] at ran
      rcases ran with ⟨rfl, rfl, rfl⟩
      exact ⟨stands.defineText found fit, Numbering.numberOf?_add_self found, rfl⟩

theorem frame_writes (stands : encoder.Stands uses earlier) {value : Frame} {number : UInt32}
    (fit : (uses.andThen ⟨[value.name, value.file], [value]⟩).Fit)
    (ran : encoder.frame value = (number, items, later)) :
    Writes uses earlier ⟨[value.name, value.file], [value]⟩ items later ∧
      later.frames.numberOf? value = some number := by
  rw [frame] at ran
  cases found : encoder.frames.numberOf? value with
  | some given =>
      rw [found] at ran
      rcases ran with ⟨rfl, rfl, rfl⟩
      have old := Numbering.mem_used stands.frames found
      rcases stands.closed value old with ⟨name, file⟩
      exact ⟨stands.again ⟨by simp [name, file], by simpa using old⟩, found⟩
  | none =>
      rw [found] at ran
      rcases nameRan : encoder.text value.name with ⟨name, nameItems, named⟩
      rcases fileRan : named.text value.file with ⟨file, fileItems, filed⟩
      simp only [nameRan, fileRan, Prod.mk.injEq] at ran
      rcases ran with ⟨rfl, rfl, rfl⟩
      -- Name and file may be one text, so the file is looked up behind what the name defines.
      have fitFile : ((uses.andThen ⟨[value.name], []⟩).andThen ⟨[value.file], []⟩).Fit := by
        rw [Uses.andThen_assoc]
        have whole : ((uses.andThen (Uses.andThen ⟨[value.name], []⟩ ⟨[value.file], []⟩)).andThen
            ⟨[], [value]⟩).Fit := by
          rw [Uses.andThen_assoc]
          exact fit
        exact whole.front
      rcases text_writes stands fitFile.front nameRan with ⟨nameWrites, nameNumber, sameFrames⟩
      rcases text_writes nameWrites.stands fitFile fileRan with ⟨fileWrites, fileNumber, stillSame⟩
      have texts := nameWrites.append fileWrites
      have new : filed.frames.numberOf? value = none := by rw [stillSame, sameFrames, found]
      have frameWrites := texts.stands.defineFrame new (by rwa [Uses.andThen_assoc])
        (Numbering.numberOf?_of_counts nameWrites.stands.texts fileWrites.stands.texts nameNumber)
        fileNumber
      exact ⟨texts.append frameWrites, Numbering.numberOf?_add_self new⟩

theorem frameList_writes (stands : encoder.Stands uses earlier) {values : List Frame}
    {numbers : List UInt32}
    (fit : (uses.andThen ⟨values.flatMap fun value => [value.name, value.file], values⟩).Fit)
    (ran : encoder.frameList values = (numbers, items, later)) :
    Writes uses earlier ⟨values.flatMap fun value => [value.name, value.file], values⟩ items later ∧
      List.Forall₂ (fun number value => later.frames.numberOf? value = some number) numbers
        values := by
  induction values generalizing encoder uses earlier numbers items with
  | nil =>
      rcases ran with ⟨rfl, rfl, rfl⟩
      exact ⟨stands.again ⟨List.nil_subset _, List.nil_subset _⟩, .nil⟩
  | cons value rest induction =>
      rcases firstRan : encoder.frame value with ⟨number, front, middle⟩
      rcases restRan : middle.frameList rest with ⟨others, back, last⟩
      simp only [frameList, firstRan, restRan, Prod.mk.injEq] at ran
      rcases ran with ⟨rfl, rfl, rfl⟩
      have fitRest : ((uses.andThen ⟨[value.name, value.file], [value]⟩).andThen
          ⟨rest.flatMap fun value => [value.name, value.file], rest⟩).Fit := by
        rw [Uses.andThen_assoc]
        exact fit
      rcases frame_writes stands fitRest.front firstRan with ⟨firstWrites, firstNumber⟩
      rcases induction firstWrites.stands fitRest restRan with ⟨restWrites, restNumbers⟩
      exact ⟨firstWrites.append restWrites,
        .cons (Numbering.numberOf?_of_counts firstWrites.stands.frames restWrites.stands.frames
          firstNumber) restNumbers⟩

/-- An item that is no definition changes no number. -/
theorem Stands.skip (stands : encoder.Stands uses earlier) {own : Item}
    (plain : own.isDefinition = false) : encoder.Stands uses (own :: earlier) :=
  { stands with
    textsDefined := fun number value found => by
      rw [← stands.textsDefined number value found]
      cases own <;> first | rfl | cases plain
    framesDefined := fun number value found => by
      rw [← stands.framesDefined number value found]
      cases own <;> first | rfl | cases plain }

/-- A record writes what it shows first, and then its own item. -/
theorem items_write (stands : encoder.Stands uses earlier) (record : Record)
    (fit : (uses.andThen ⟨record.texts, record.frames⟩).Fit) :
    ∃ definitions own, (encoder.items record).1 = definitions ++ [own] ∧
      own.isDefinition = false ∧
      Writes uses earlier ⟨record.texts, record.frames⟩ definitions (encoder.items record).2 ∧
      own.Means (definitions.reverse ++ earlier) (some record.named) := by
  have nothing : Writes uses earlier ⟨[], []⟩ [] encoder :=
    stands.again ⟨List.nil_subset _, List.nil_subset _⟩
  cases record with
  | header start => exact ⟨[], _, rfl, rfl, nothing, .header start⟩
  | threadName thread name =>
      rcases ran : encoder.text name with ⟨number, definitions, later⟩
      rcases text_writes stands fit ran with ⟨writes, isNumber, -⟩
      simp only [Encoder.items, ran]
      exact ⟨definitions, _, rfl, rfl, writes,
        .threadName thread number (writes.stands.textsDefined number name isNumber)⟩
  | sample taken =>
      rcases ran : encoder.frameList taken.frames with ⟨numbers, definitions, later⟩
      rcases frameList_writes stands fit ran with ⟨writes, areNumbers⟩
      simp only [Encoder.items, ran]
      exact ⟨definitions, _, rfl, rfl, writes, .sample taken.thread taken.task taken.metric numbers
        (areNumbers.imp writes.stands.framesDefined)⟩
  | marker failed =>
      refine ⟨[], _, rfl, rfl, nothing, ?_⟩
      have means : Item.Means ([].reverse ++ earlier) _ _ :=
        .marker failed.thread failed.reason.code
      rw [FailureReason.ofCode_code] at means
      exact means

/-- The items of each of several records in turn. -/
def chunksEach (encoder : Encoder) : List Record → List (List Item)
  | [] => []
  | record :: rest => (encoder.items record).1 :: (encoder.items record).2.chunksEach rest

theorem encodeEach_eq_chunksEach (encoder : Encoder) (records : List Record) :
    (encoder.encodeEach records).1 = (encoder.chunksEach records).map (·.flatMap Item.bytes) := by
  induction records generalizing encoder with
  | nil => rfl
  | cons record rest induction =>
      simp only [encodeEach, encode, chunksEach, List.map_cons, induction]

theorem flatten_chunksEach (encoder : Encoder) (records : List Record) :
    (encoder.chunksEach records).flatten = encoder.itemsEach records := by
  induction records generalizing encoder with
  | nil => rfl
  | cons record rest induction => rw [chunksEach, itemsEach, List.flatten_cons, induction]

theorem chunksEach_append (encoder : Encoder) (front back : List Record) :
    encoder.chunksEach (front ++ back) =
      encoder.chunksEach front ++ (encoder.encodeEach front).2.chunksEach back := by
  induction front generalizing encoder with
  | nil => rfl
  | cons first rest induction =>
      simp only [List.cons_append, chunksEach, encodeEach, encode, induction]

theorem length_chunksEach (encoder : Encoder) (records : List Record) :
    (encoder.chunksEach records).length = records.length := by
  induction records generalizing encoder with
  | nil => rfl
  | cons record rest induction => rw [chunksEach, List.length_cons, induction, List.length_cons]

end Encoder

/-! ## Whole streams -/

theorem usesOf_append (front back : List Record) :
    usesOf (front ++ back) = (usesOf front).andThen (usesOf back) := by
  simp only [usesOf, Uses.andThen, List.flatMap_append]

theorem usesOf_concat (records : List Record) (record : Record) :
    usesOf (records ++ [record]) = (usesOf records).andThen ⟨record.texts, record.frames⟩ := by
  rw [usesOf_append]
  simp [usesOf]

/--
The stream of some records defines all that they show, in the order of first uses, and their encoder
knows these numbers.
-/
structure Introduced (records : List Record) : Prop where
  stands : (encoderAfter records).Stands (usesOf records)
    (({} : Encoder).itemsEach records).reverse
  texts : textDefinitions (({} : Encoder).itemsEach records) =
    numbered 0 (usesOf records).texts.eraseDups
  frames : frameDefinitions [] (({} : Encoder).itemsEach records) =
    numbered 0 ((usesOf records).frames.eraseDups.map some)

theorem introduced_nil : Introduced [] where
  stands :=
    { texts := rfl
      frames := rfl
      closed := fun _ member => absurd member List.not_mem_nil
      textsDefined := fun _ _ found => absurd (Numbering.mem_of_numberOf? found) List.not_mem_nil
      framesDefined := fun _ _ found => absurd (Numbering.mem_of_numberOf? found) List.not_mem_nil }
  texts := rfl
  frames := rfl

/-- One more record adds what it is the first to show. -/
theorem Introduced.concat {records : List Record} (introduced : Introduced records)
    {record : Record} (fit : (usesOf (records ++ [record])).Fit) :
    Introduced (records ++ [record]) := by
  rw [usesOf_concat] at fit
  rcases Encoder.items_write introduced.stands record fit with
    ⟨definitions, own, split, plain, writes, -⟩
  have noText : textDefinitions [own] = [] := by
    cases own <;> first | rfl | cases plain
  have noFrame (earlier : List Item) : frameDefinitions earlier [own] = [] := by
    cases own <;> first | rfl | cases plain
  have items : ({} : Encoder).itemsEach (records ++ [record]) =
      ({} : Encoder).itemsEach records ++ (definitions ++ [own]) := by
    rw [Encoder.itemsEach_append, ← encoderAfter, Encoder.itemsEach, Encoder.itemsEach, split,
      List.append_nil]
  refine ⟨?_, ?_, ?_⟩
  · rw [encoderAfter_concat, usesOf_concat, items]
    simpa using writes.stands.skip plain
  · rw [items, textDefinitions_append, textDefinitions_append, noText, List.append_nil,
      introduced.texts, writes.texts, usesOf_concat, Uses.andThen, eraseDups_append_firstUses,
      numbered_append, Nat.zero_add]
  · rw [items, frameDefinitions_append, frameDefinitions_append, noFrame, List.append_nil,
      List.append_nil, introduced.frames, writes.frames, usesOf_concat, Uses.andThen,
      eraseDups_append_firstUses, List.map_append, numbered_append, List.length_map, Nat.zero_add]

theorem introduced_of_fit (records : List Record) (fit : (usesOf records).Fit) :
    Introduced records := by
  induction records using List.reverseRecOn with
  | nil => exact introduced_nil
  | append_singleton records record induction =>
      have fitFront := fit
      rw [usesOf_concat] at fitFront
      exact (induction fitFront.front).concat fit

/-- Items that stand for no record and define nothing are none. -/
theorem Denotes.eq_nil {earlier items : List Item} {records : List Record}
    (denotes : Denotes earlier items records) (noRecord : records = [])
    (noText : textDefinitions items = []) (noFrame : frameDefinitions earlier items = []) :
    items = [] := by
  cases denotes with
  | nil => rfl
  | cons means _ =>
      cases means with
      | text => cases noText
      | frame => cases noFrame
      | _ => cases noRecord

/--
What stands in front of a record's own item, behind `earlier` items: definitions of what the record
is the first to show, in this order, each behind the definitions that it refers to.  If nothing is
shown for the first time, there are none.
-/
structure Introduces (used : Uses) (earlier : List Item) (record : Record)
    (definitions : List Item) (own : Item) : Prop where
  texts : (textDefinitions definitions).map Prod.snd = firstUses used.texts record.texts
  frames : (frameDefinitions earlier definitions).map Prod.snd =
    (firstUses used.frames record.frames).map some
  definitionsMean : Denotes earlier definitions []
  ownMeans : own.Means (definitions.reverse ++ earlier) (some record.named)
  alone : Uses.Known ⟨record.texts, record.frames⟩ used → definitions = []

theorem Introduced.next {records : List Record} (introduced : Introduced records) {record : Record}
    (fit : (usesOf (records ++ [record])).Fit) :
    ∃ definitions own,
      ((encoderAfter records).items record).1 = definitions ++ [own] ∧
        Introduces (usesOf records) (({} : Encoder).itemsEach records).reverse record definitions
          own := by
  rw [usesOf_concat] at fit
  rcases Encoder.items_write introduced.stands record fit with
    ⟨definitions, own, split, -, writes, ownMeans⟩
  refine ⟨definitions, own, split, ?_, ?_, writes.means, ownMeans, ?_⟩
  · rw [writes.texts, values_numbered]
  · rw [writes.frames, values_numbered]
  · intro known
    refine writes.means.eq_nil rfl ?_ ?_
    · rw [writes.texts, firstUses_eq_nil known.texts]
      rfl
    · rw [writes.frames, firstUses_eq_nil known.frames]
      rfl

/--
In the stream of any records with no more distinct texts and frames than there are numbers, the
definitions of texts have the numbers 0, 1, 2 and so on and define pairwise different texts, and so
do those of frames.  The chunk of a record is its own item behind the definitions of what it is the
first to show.
-/
theorem definitions_first_used {records : List Record}
    (fewTexts : (records.flatMap Record.texts).eraseDups.length ≤ 2 ^ 32)
    (fewFrames : (records.flatMap Record.frames).eraseDups.length ≤ 2 ^ 32) :
    (({} : Encoder).encodeEach records).1 =
        (({} : Encoder).chunksEach records).map (·.flatMap Item.bytes) ∧
      Dense (textDefinitions (({} : Encoder).chunksEach records).flatten) ∧
      Dense (frameDefinitions [] (({} : Encoder).chunksEach records).flatten) ∧
      ∀ front record back, records = front ++ record :: back →
        ∃ definitions own,
          (({} : Encoder).chunksEach records)[front.length]? = some (definitions ++ [own]) ∧
            Introduces (usesOf front)
              (((({} : Encoder).chunksEach records).take front.length).flatten).reverse record
              definitions own := by
  have fit : (usesOf records).Fit := ⟨fewTexts, fewFrames⟩
  have introduced := introduced_of_fit records fit
  refine ⟨Encoder.encodeEach_eq_chunksEach _ _, ?_, ?_, ?_⟩
  · rw [Encoder.flatten_chunksEach, introduced.texts]
    exact dense_numbered fit.texts (nodup_eraseDups _)
  · rw [Encoder.flatten_chunksEach, introduced.frames]
    refine dense_numbered ?_ ((nodup_eraseDups _).map fun _ _ => Option.some.inj)
    rw [List.length_map]
    exact fit.frames
  · rintro front record back rfl
    have fitHere : (usesOf (front ++ [record])).Fit := by
      rw [List.append_cons, usesOf_append] at fit
      exact fit.front
    have fitFront := fitHere
    rw [usesOf_append] at fitFront
    rcases (introduced_of_fit front fitFront.front).next fitHere with
      ⟨definitions, own, split, introduces⟩
    refine ⟨definitions, own, ?_, ?_⟩
    · rw [Encoder.chunksEach_append, Encoder.chunksEach, ← encoderAfter, split,
        List.getElem?_append_right (by rw [Encoder.length_chunksEach]), Encoder.length_chunksEach,
        Nat.sub_self]
      rfl
    · have place := Encoder.length_chunksEach {} front
      rw [Encoder.chunksEach_append, ← place, List.take_left, Encoder.flatten_chunksEach]
      exact introduces

/-- A profile with repeated texts and frames. -/
theorem definitions_first_used_shortProfile :
    (shortProfile.flatMap Record.texts).eraseDups.length ≤ 2 ^ 32 ∧
      (shortProfile.flatMap Record.frames).eraseDups.length ≤ 2 ^ 32 ∧
      Dense (textDefinitions (({} : Encoder).chunksEach shortProfile).flatten) ∧
      Dense (frameDefinitions [] (({} : Encoder).chunksEach shortProfile).flatten) := by
  have fewTexts : (shortProfile.flatMap Record.texts).eraseDups.length ≤ 2 ^ 32 := by
    decide +kernel
  have fewFrames : (shortProfile.flatMap Record.frames).eraseDups.length ≤ 2 ^ 32 := by
    decide +kernel
  have first := definitions_first_used fewTexts fewFrames
  exact ⟨fewTexts, fewFrames, first.2.1, first.2.2.1⟩

end StackSampler.Stream
