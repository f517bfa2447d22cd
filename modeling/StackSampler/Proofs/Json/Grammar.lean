import StackSampler.Proofs.Json.Reading

/-!
# Passing over values

The grammar of JSON, with blanks between all parts, numbers of any size and texts of any spelling.
Whatever has its form is read to its end without a flaw for those who pass over it; so nobody can
tell what stands in a part of a text that is not wanted.
-/

namespace StackSampler.Json

/-- A whole value, what closes an array behind its bracket, or what closes an object. -/
inductive Part where
  | value
  | items
  | members
deriving DecidableEq, Repr

/-- The grammar of values, and of the items and members that close an array and an object. -/
inductive IsJson : Part → List Char → Prop where
  | null : IsJson .value ['n', 'u', 'l', 'l']
  | yes : IsJson .value ['t', 'r', 'u', 'e']
  | no : IsJson .value ['f', 'a', 'l', 's', 'e']
  | unsigned {whole places power : List Char} (isWhole : IsWhole whole)
      (isFraction : IsFraction places) (isExponent : IsExponent power) :
      IsJson .value (whole ++ places ++ power)
  | negative {whole places power : List Char} (isWhole : IsWhole whole)
      (isFraction : IsFraction places) (isExponent : IsExponent power) :
      IsJson .value ('-' :: (whole ++ places ++ power))
  | text {body : List Char} (isBody : IsTextBody body) : IsJson .value ('"' :: (body ++ ['"']))
  | emptyArray {blanks : List Char} (blank : AllBlank blanks) :
      IsJson .value ('[' :: (blanks ++ [']']))
  | array {items : List Char} (isItems : IsJson .items items) : IsJson .value ('[' :: items)
  | emptyObject {blanks : List Char} (blank : AllBlank blanks) :
      IsJson .value ('\x7b' :: (blanks ++ ['\x7d']))
  | object {members : List Char} (isMembers : IsJson .members members) :
      IsJson .value ('\x7b' :: members)
  | lastItem {before value after : List Char} (blankBefore : AllBlank before)
      (isValue : IsJson .value value) (blankAfter : AllBlank after) :
      IsJson .items (before ++ value ++ (after ++ [']']))
  | item {before value after items : List Char} (blankBefore : AllBlank before)
      (isValue : IsJson .value value) (blankAfter : AllBlank after)
      (isItems : IsJson .items items) :
      IsJson .items (before ++ value ++ (after ++ ',' :: items))
  | lastMember {start body middle before value after : List Char} (blankStart : AllBlank start)
      (isBody : IsTextBody body) (blankMiddle : AllBlank middle) (blankBefore : AllBlank before)
      (isValue : IsJson .value value) (blankAfter : AllBlank after) :
      IsJson .members (start ++ ('"' :: (body ++ '"' :: (middle ++ ':' ::
        (before ++ value ++ (after ++ ['\x7d']))))))
  | member {start body middle before value after members : List Char}
      (blankStart : AllBlank start) (isBody : IsTextBody body) (blankMiddle : AllBlank middle)
      (blankBefore : AllBlank before) (isValue : IsJson .value value) (blankAfter : AllBlank after)
      (isMembers : IsJson .members members) :
      IsJson .members (start ++ ('"' :: (body ++ '"' :: (middle ++ ':' ::
        (before ++ value ++ (after ++ ',' :: members))))))

/-- A part is read to its end, and nothing in it stops who passes over it. -/
def Passes : Part → List Char → Prop
  | .value, text => ∃ value, ReadAs text value ∧ skipFault value = none
  | .items, text => ∃ items, ItemsReadAs text items ∧ skipItems items = none
  | .members, text => ∃ members, MembersReadAs text members ∧ skipMembers members = none

theorem IsTextBody.readAs {body : List Char} (isBody : IsTextBody body) :
    ∃ name, BodyReadAs body name ∧ ∀ flaw, name = .error flaw → flaw.skipped = none := by
  rcases IsTextBody.read body.length (Nat.le_refl _) isBody [] with ⟨name, taken, passes⟩
  refine ⟨name, fun rest => taken _ rest ?_, passes⟩
  rw [List.length_append]
  omega

theorem IsWhole.head_digit {whole : List Char} (isWhole : IsWhole whole) :
    ∃ first others, whole = first :: others ∧ isDigit first = true := by
  cases isWhole with
  | zero => exact ⟨_, _, rfl, by decide⟩
  | digits digit => exact ⟨_, _, rfl, digit⟩

/-- A name, whatever its spelling, does not stop who passes over its member. -/
theorem skipMembers_cons {name : Except Flaw String} {value : Value}
    {members : List (Except Flaw String × Value)}
    (named : ∀ flaw, name = .error flaw → flaw.skipped = none) (passes : skipFault value = none)
    (others : skipMembers members = none) : skipMembers ((name, value) :: members) = none := by
  cases name with
  | ok name => simp [skipMembers, passes, others]
  | error flaw => simp [skipMembers, named flaw rfl, passes, others]

theorem IsJson.passes {part : Part} {text : List Char} (isJson : IsJson part text) :
    Passes part text := by
  induction isJson with
  | null => exact ⟨_, readAs_null, rfl⟩
  | yes => exact ⟨_, readAs_true, rfl⟩
  | no => exact ⟨_, readAs_false, rfl⟩
  | unsigned isWhole isFraction isExponent =>
      rcases read_number false isWhole isFraction isExponent with ⟨value, taken, passes, -⟩
      rcases isWhole.head_digit with ⟨first, others, rfl, digit⟩
      exact ⟨value, readAs_unsigned digit taken, passes⟩
  | negative isWhole isFraction isExponent =>
      rcases read_number true isWhole isFraction isExponent with ⟨value, taken, passes, -⟩
      exact ⟨value, readAs_negative taken, passes⟩
  | text isBody =>
      rcases isBody.readAs with ⟨name, read, passes⟩
      refine ⟨_, readAs_text read, ?_⟩
      cases name with
      | ok => rfl
      | error flaw => exact passes flaw rfl
  | emptyArray blank => exact ⟨_, readAs_emptyArray blank, rfl⟩
  | array _ induction =>
      rcases induction with ⟨items, read, passes⟩
      exact ⟨_, readAs_array read, by simp [skipFault, passes]⟩
  | emptyObject blank => exact ⟨_, readAs_emptyObject blank, rfl⟩
  | object _ induction =>
      rcases induction with ⟨members, read, passes⟩
      exact ⟨_, readAs_object read, by simp [skipFault, passes]⟩
  | lastItem blankBefore _ blankAfter induction =>
      rcases induction with ⟨value, read, passes⟩
      exact ⟨_, items_last (read.after_blanks blankBefore) blankAfter,
        by simp [skipItems, passes]⟩
  | item blankBefore _ blankAfter _ first others =>
      rcases first with ⟨value, read, passes⟩
      rcases others with ⟨items, more, pass⟩
      exact ⟨_, items_cons (read.after_blanks blankBefore) blankAfter more,
        by simp [skipItems, passes, pass]⟩
  | lastMember blankStart isBody blankMiddle blankBefore _ blankAfter induction =>
      rcases isBody.readAs with ⟨name, named, harmless⟩
      rcases induction with ⟨value, read, passes⟩
      have taken := members_last named blankMiddle (read.after_blanks blankBefore) blankAfter
      exact ⟨_, taken.after_blanks blankStart, skipMembers_cons harmless passes rfl⟩
  | member blankStart isBody blankMiddle blankBefore _ blankAfter _ first others =>
      rcases isBody.readAs with ⟨name, named, harmless⟩
      rcases first with ⟨value, read, passes⟩
      rcases others with ⟨members, more, pass⟩
      have taken := members_cons named blankMiddle (read.after_blanks blankBefore) blankAfter more
      exact ⟨_, taken.after_blanks blankStart, skipMembers_cons harmless passes pass⟩

end StackSampler.Json
