import Mathlib.Data.List.TakeWhile
import StackSampler.Proofs.Json.Tokens

/-!
# Reading values

A text is read as a value if it is so whatever follows it, given steps enough: two for each
character of the text will do.  Arrays and objects are put together from what their parts are read
as; blanks may stand between all parts.
-/

namespace StackSampler.Json

/-- Blanks, of which there may be none. -/
def AllBlank (text : List Char) : Prop :=
  ∀ c ∈ text, isSpace c = true

/-- A text is read as a value. -/
def ReadAs (text : List Char) (value : Value) : Prop :=
  ∀ fuel rest, 2 * text.length ≤ fuel → Ends rest →
    readValue fuel (text ++ rest) = (value, some rest)

/-- A text that closes an array is read as the items before the bracket. -/
def ItemsReadAs (text : List Char) (items : List Value) : Prop :=
  ∀ fuel rest, 2 * text.length ≤ fuel → readItems fuel (text ++ rest) = (items, none, some rest)

/-- A text that closes an object is read as the members before the brace. -/
def MembersReadAs (text : List Char) (members : List (Except Flaw String × Value)) : Prop :=
  ∀ fuel rest, 2 * text.length ≤ fuel →
    readMembers fuel (text ++ rest) = (members, none, some rest)

/-- What stands between the quotes of a text is read as a name. -/
def BodyReadAs (body : List Char) (name : Except Flaw String) : Prop :=
  ∀ rest, readText (body ++ '"' :: rest).length.succ [] (body ++ '"' :: rest) = (name, some rest)

variable {blanks text more : List Char}

/-- No value is empty, so there is a first step. -/
theorem readAs_of_step {value : Value} (nonempty : text ≠ [])
    (read : ∀ fuel rest, 2 * text.length ≤ fuel + 1 → Ends rest →
      readValue (fuel + 1) (text ++ rest) = (value, some rest)) : ReadAs text value := by
  intro fuel rest enough ends
  have positive := List.length_pos_iff.mpr nonempty
  obtain ⟨fuel, rfl⟩ : ∃ less, fuel = less + 1 := Nat.exists_eq_add_one.mpr (by omega)
  exact read fuel rest enough ends

/-! ## Blanks -/

theorem allBlank_nil : AllBlank [] :=
  fun _ mem => nomatch mem

theorem dropWhile_blanks (all : AllBlank blanks) (rest : List Char) :
    (blanks ++ rest).dropWhile isSpace = rest.dropWhile isSpace :=
  List.dropWhile_append_of_pos all

theorem readValue_blanks (all : AllBlank blanks) (fuel : Nat) (rest : List Char) :
    readValue fuel (blanks ++ rest) = readValue fuel rest := by
  cases fuel with
  | zero => rfl
  | succ fuel => rw [readValue, readValue, dropWhile_blanks all]

theorem readItems_blanks (all : AllBlank blanks) (fuel : Nat) (rest : List Char) :
    readItems fuel (blanks ++ rest) = readItems fuel rest := by
  cases fuel with
  | zero => rfl
  | succ fuel => rw [readItems, readItems, readValue_blanks all]

theorem readMembers_blanks (all : AllBlank blanks) (fuel : Nat) (rest : List Char) :
    readMembers fuel (blanks ++ rest) = readMembers fuel rest := by
  cases fuel with
  | zero => rfl
  | succ fuel => rw [readMembers, readMembers, dropWhile_blanks all]

theorem readItems_dropWhile (fuel : Nat) (text : List Char) :
    readItems fuel (text.dropWhile isSpace) = readItems fuel text := by
  conv_rhs => rw [← List.takeWhile_append_dropWhile (p := isSpace) (l := text)]
  exact (readItems_blanks (fun _ mem => List.mem_takeWhile_imp mem) fuel _).symm

theorem readMembers_dropWhile (fuel : Nat) (text : List Char) :
    readMembers fuel (text.dropWhile isSpace) = readMembers fuel text := by
  conv_rhs => rw [← List.takeWhile_append_dropWhile (p := isSpace) (l := text)]
  exact (readMembers_blanks (fun _ mem => List.mem_takeWhile_imp mem) fuel _).symm

theorem ReadAs.after_blanks {value : Value} (all : AllBlank blanks) (readAs : ReadAs text value) :
    ReadAs (blanks ++ text) value := by
  intro fuel rest enough ends
  rw [List.append_assoc, readValue_blanks all]
  apply readAs fuel rest _ ends
  rw [List.length_append] at enough
  omega

/-- No number goes on with blanks and a mark. -/
theorem ends_blanks (all : AllBlank blanks) (mark : Char) (isMark : Ends [mark])
    (rest : List Char) : Ends (blanks ++ mark :: rest) := by
  cases blanks with
  | nil => exact ends_cons.mpr (ends_cons.mp isMark)
  | cons c blanks =>
      have space : isSpace c = true := all c List.mem_cons_self
      simp only [isSpace, Bool.or_eq_true, beq_iff_eq] at space
      apply ends_cons.mpr
      rcases space with ((rfl | rfl) | rfl) | rfl <;> decide

/-! ## Words, numbers and texts -/

theorem word_append (value : Value) (expected rest : List Char) :
    word value expected (expected ++ rest) = (value, some rest) := by
  induction expected with
  | nil => rfl
  | cons c expected induction => simp [word, induction]

theorem readAs_null : ReadAs ['n', 'u', 'l', 'l'] .null := by
  apply readAs_of_step (List.cons_ne_nil _ _)
  intro fuel rest enough _
  exact word_append .null ['u', 'l', 'l'] rest

theorem readAs_true : ReadAs ['t', 'r', 'u', 'e'] (.bool true) := by
  apply readAs_of_step (List.cons_ne_nil _ _)
  intro fuel rest enough _
  exact word_append (.bool true) ['r', 'u', 'e'] rest

theorem readAs_false : ReadAs ['f', 'a', 'l', 's', 'e'] (.bool false) := by
  apply readAs_of_step (List.cons_ne_nil _ _)
  intro fuel rest enough _
  exact word_append (.bool false) ['a', 'l', 's', 'e'] rest

theorem isSpace_of_isDigit {c : Char} (digit : isDigit c = true) : isSpace c = false := by
  cases space : isSpace c with
  | false => rfl
  | true =>
      simp only [isSpace, Bool.or_eq_true, beq_iff_eq] at space
      rcases space with ((rfl | rfl) | rfl) | rfl <;> exact absurd digit (by decide)

theorem readAs_unsigned {first : Char} {value : Value} (digit : isDigit first = true)
    (read : ∀ rest, Ends rest → number false (first :: text ++ rest) = (value, some rest)) :
    ReadAs (first :: text) value := by
  apply readAs_of_step (List.cons_ne_nil _ _)
  intro fuel rest enough ends
  have unblank : ¬ isSpace first = true := by simp [isSpace_of_isDigit digit]
  rw [readValue, List.cons_append, List.dropWhile_cons_of_neg unblank]
  split
  case h_1 same => cases same
  case h_9 c after _ _ _ _ _ _ _ same =>
    cases same
    rw [if_pos digit]
    exact read rest ends
  all_goals
    rename_i same
    cases same
    exact absurd digit (by decide)

theorem readAs_negative {value : Value}
    (read : ∀ rest, Ends rest → number true (text ++ rest) = (value, some rest)) :
    ReadAs ('-' :: text) value := by
  apply readAs_of_step (List.cons_ne_nil _ _)
  intro fuel rest enough ends
  exact read rest ends

/-- The value of a text whose name may be flawed. -/
def ofName : Except Flaw String → Value
  | .ok value => .text value
  | .error flaw => .flawed flaw

theorem readAs_text {body : List Char} {name : Except Flaw String} (read : BodyReadAs body name) :
    ReadAs ('"' :: (body ++ ['"'])) (ofName name) := by
  apply readAs_of_step (List.cons_ne_nil _ _)
  intro fuel rest enough _
  have taken := read rest
  have shape : '"' :: (body ++ ['"']) ++ rest = '"' :: (body ++ '"' :: rest) := by simp
  rw [shape, readValue, List.dropWhile_cons_of_neg (show ¬ isSpace '"' = true by decide)]
  simp only [taken]
  cases name <;> rfl

/-! ## Arrays -/

theorem items_last {value : Value} (readAs : ReadAs text value) (all : AllBlank blanks) :
    ItemsReadAs (text ++ (blanks ++ [']'])) [value] := by
  intro fuel rest enough
  simp only [List.length_append, List.length_cons, List.length_nil] at enough
  obtain ⟨fuel, rfl⟩ : ∃ less, fuel = less + 1 := ⟨fuel - 1, by omega⟩
  have shape : text ++ (blanks ++ [']']) ++ rest = text ++ (blanks ++ ']' :: rest) := by simp
  rw [shape, readItems,
    readAs fuel _ (by omega) (ends_blanks all _ (ends_cons.mpr (by decide)) rest)]
  simp only [dropWhile_blanks all]
  rfl

theorem items_cons {value : Value} {items : List Value} (readAs : ReadAs text value)
    (all : AllBlank blanks) (others : ItemsReadAs more items) :
    ItemsReadAs (text ++ (blanks ++ ',' :: more)) (value :: items) := by
  intro fuel rest enough
  simp only [List.length_append, List.length_cons] at enough
  obtain ⟨fuel, rfl⟩ : ∃ less, fuel = less + 1 := ⟨fuel - 1, by omega⟩
  have shape : text ++ (blanks ++ ',' :: more) ++ rest =
      text ++ (blanks ++ ',' :: (more ++ rest)) := by
    simp
  rw [shape, readItems, readAs fuel _ (by omega) (ends_blanks all _ (ends_cons.mpr (by decide)) _)]
  simp only [dropWhile_blanks all, others fuel rest (by omega),
    List.dropWhile_cons_of_neg (show ¬ isSpace ',' = true by decide)]

theorem readAs_emptyArray (all : AllBlank blanks) :
    ReadAs ('[' :: (blanks ++ [']'])) (.array [] none) := by
  apply readAs_of_step (List.cons_ne_nil _ _)
  intro fuel rest enough _
  rw [readValue, List.cons_append, List.append_assoc,
    List.dropWhile_cons_of_neg (show ¬ isSpace '[' = true by decide)]
  simp only [dropWhile_blanks all]
  rfl

theorem readAs_array {items : List Value} (read : ItemsReadAs text items) :
    ReadAs ('[' :: text) (.array items none) := by
  apply readAs_of_step (List.cons_ne_nil _ _)
  intro fuel rest enough _
  have taken := read fuel rest (by simp at enough; omega)
  rw [← readItems_dropWhile] at taken
  rw [readValue, List.cons_append, List.dropWhile_cons_of_neg (show ¬ isSpace '[' = true by decide)]
  simp only
  split
  -- Nothing that is read as items starts with a bracket that closes or with the end.
  case h_1 after same =>
    rw [same] at taken
    cases fuel with
    | zero => cases taken
    | succ fuel => cases fuel <;> cases taken
  case h_2 same =>
    rw [same] at taken
    cases fuel with
    | zero => cases taken
    | succ fuel => cases fuel <;> cases taken
  case h_3 => rw [taken]

/-! ## Objects -/

theorem members_last {body after : List Char} {name : Except Flaw String} {value : Value}
    (named : BodyReadAs body name) (before : AllBlank blanks) (readAs : ReadAs text value)
    (all : AllBlank after) :
    MembersReadAs ('"' :: (body ++ '"' :: (blanks ++ ':' :: (text ++ (after ++ ['\x7d'])))))
      [(name, value)] := by
  intro fuel rest enough
  simp only [List.length_append, List.length_cons, List.length_nil] at enough
  obtain ⟨fuel, rfl⟩ : ∃ less, fuel = less + 1 := ⟨fuel - 1, by omega⟩
  have ends := ends_blanks all '\x7d' (ends_cons.mpr (by decide)) rest
  have content := readAs fuel (after ++ '\x7d' :: rest) (by omega) ends
  simp only [List.cons_append, List.append_assoc, List.nil_append]
  rw [readMembers, List.dropWhile_cons_of_neg (show ¬ isSpace '"' = true by decide)]
  simp only [named (blanks ++ ':' :: (text ++ (after ++ '\x7d' :: rest)))]
  cases name <;>
    simp only [dropWhile_blanks before, content, dropWhile_blanks all,
      List.dropWhile_cons_of_neg (show ¬ isSpace ':' = true by decide),
      List.dropWhile_cons_of_neg (show ¬ isSpace '\x7d' = true by decide)]

theorem members_cons {body after : List Char} {name : Except Flaw String} {value : Value}
    {members : List (Except Flaw String × Value)} (named : BodyReadAs body name)
    (before : AllBlank blanks) (readAs : ReadAs text value) (all : AllBlank after)
    (others : MembersReadAs more members) :
    MembersReadAs ('"' :: (body ++ '"' :: (blanks ++ ':' :: (text ++ (after ++ ',' :: more)))))
      ((name, value) :: members) := by
  intro fuel rest enough
  simp only [List.length_append, List.length_cons] at enough
  obtain ⟨fuel, rfl⟩ : ∃ less, fuel = less + 1 := ⟨fuel - 1, by omega⟩
  have ends := ends_blanks all ',' (ends_cons.mpr (by decide)) (more ++ rest)
  have content := readAs fuel (after ++ ',' :: (more ++ rest)) (by omega) ends
  have following := others fuel rest (by omega)
  simp only [List.cons_append, List.append_assoc]
  rw [readMembers, List.dropWhile_cons_of_neg (show ¬ isSpace '"' = true by decide)]
  simp only [named (blanks ++ ':' :: (text ++ (after ++ ',' :: (more ++ rest))))]
  cases name <;>
    simp only [dropWhile_blanks before, content, dropWhile_blanks all, following,
      List.dropWhile_cons_of_neg (show ¬ isSpace ':' = true by decide),
      List.dropWhile_cons_of_neg (show ¬ isSpace ',' = true by decide)]

theorem MembersReadAs.after_blanks {members : List (Except Flaw String × Value)}
    (all : AllBlank blanks) (read : MembersReadAs text members) :
    MembersReadAs (blanks ++ text) members := by
  intro fuel rest enough
  rw [List.append_assoc, readMembers_blanks all]
  apply read
  rw [List.length_append] at enough
  omega

theorem readAs_emptyObject (all : AllBlank blanks) :
    ReadAs ('\x7b' :: (blanks ++ ['\x7d'])) (.object [] none) := by
  apply readAs_of_step (List.cons_ne_nil _ _)
  intro fuel rest enough _
  rw [readValue, List.cons_append, List.append_assoc,
    List.dropWhile_cons_of_neg (show ¬ isSpace '\x7b' = true by decide)]
  simp only [dropWhile_blanks all]
  rfl

theorem readAs_object {members : List (Except Flaw String × Value)}
    (read : MembersReadAs text members) : ReadAs ('\x7b' :: text) (.object members none) := by
  apply readAs_of_step (List.cons_ne_nil _ _)
  intro fuel rest enough _
  have taken := read fuel rest (by simp at enough; omega)
  rw [← readMembers_dropWhile] at taken
  rw [readValue, List.cons_append,
    List.dropWhile_cons_of_neg (show ¬ isSpace '\x7b' = true by decide)]
  simp only
  split
  -- Nor does anything that is read as members start with a brace that closes.
  case h_1 after same =>
    rw [same] at taken
    cases fuel <;> cases taken
  case h_2 => rw [taken]

end StackSampler.Json
