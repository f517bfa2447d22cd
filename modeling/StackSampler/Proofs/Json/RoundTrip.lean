import StackSampler.Proofs.Json.Reading

/-!
# Printed values are read back

A value without flaws, whose numbers are whole, is read back from its compact text.  An object may
be given by the names of its members and any texts that are read as their values; that is how
objects are described whose members were moved about or come from elsewhere.
-/

namespace StackSampler.Json

/-- Values without flaws, whose numbers are whole. -/
inductive IsPlain : Value → Prop where
  | null : IsPlain .null
  | bool (value : Bool) : IsPlain (.bool value)
  | natural (value : UInt64) : IsPlain (.number (.natural value))
  | negative {value : Int} (low : -2 ^ 63 ≤ value) (negative : value < 0) :
      IsPlain (.number (.negative value))
  | text (value : String) : IsPlain (.text value)
  | array {items : List Value} (plain : ∀ item ∈ items, IsPlain item) : IsPlain (.array items none)
  | object {members : List (String × Value)} (plain : ∀ member ∈ members, IsPlain member.2) :
      IsPlain (ofMembers members)

/-- The text of a member, given by its name and the text of its value. -/
def memberText (member : String × String) : String :=
  printText member.1 ++ ":" ++ member.2

/-- A member with the text of its value. -/
def spelled (member : String × Value) : String × String :=
  (member.1, print member.2)

/-- A member with the value that its text is read as. -/
def valued (member : String × String) : String × Value :=
  (member.1, (parse member.2).1)

/-- The text of an object, given by the names of its members and the texts of their values. -/
def objectText (members : List (String × String)) : String :=
  "\x7b" ++ String.intercalate "," (members.map memberText) ++ "\x7d"

/-! ## Whole texts -/

theorem ReadAs.parse {text : String} {value : Value} (readAs : ReadAs text.toList value) :
    parse text = (value, none) := by
  have read := readAs (2 * text.toList.length + 2) [] (by omega) ends_nil
  rw [List.append_nil] at read
  simp [Json.parse, read]

/-! ## Numbers and texts -/

theorem readAs_natural (value : UInt64) :
    ReadAs (toString value.toNat).toList (.number (.natural value)) := by
  have digits := allDigits_toDigits value.toNat
  have read : ∀ rest, Ends rest →
      number false (Nat.toDigits 10 value.toNat ++ rest) =
        (.number (.natural value), some rest) := by
    intro rest ends
    rw [read_numeral false value.toNat ends, numberValue_natural]
  rw [Nat.toString_eq_repr, Nat.toList_repr]
  cases shape : Nat.toDigits 10 value.toNat with
  | nil => exact absurd shape Nat.toDigits_ne_nil
  | cons first others =>
      rw [shape] at digits read
      exact readAs_unsigned (digits first List.mem_cons_self) read

theorem toList_toString_negative {value : Int} (negative : value < 0) :
    (toString value).toList = '-' :: Nat.toDigits 10 value.natAbs := by
  cases value with
  | ofNat value => exact absurd negative (by simp)
  | negSucc less =>
      show ("-" ++ Nat.repr (less + 1)).toList = _
      simp

theorem readAs_negativeNumeral {value : Int} (low : -2 ^ 63 ≤ value) (negative : value < 0) :
    ReadAs (toString value).toList (.number (.negative value)) := by
  rw [toList_toString_negative negative]
  apply readAs_negative
  intro rest ends
  rw [read_numeral true value.natAbs ends, numberValue_negative low negative]

/-- What stands between the quotes of a printed text. -/
def printedBody (value : String) : List Char :=
  (value.toList.map escapeChar).flatMap String.toList

theorem toList_printText (value : String) :
    (printText value).toList = '"' :: (printedBody value ++ ['"']) := by
  simp [printText, printedBody]

theorem escapeChar_ne_nil (c : Char) : (escapeChar c).toList ≠ [] := by
  unfold escapeChar
  split
  case h_8 => split <;> simp
  all_goals simp

theorem length_le_printedBody (text : List Char) :
    text.length ≤ ((text.map escapeChar).flatMap String.toList).length := by
  induction text with
  | nil => exact Nat.le_refl _
  | cons c others induction =>
      have some := List.length_pos_iff.mpr (escapeChar_ne_nil c)
      rw [List.map_cons, List.flatMap_cons, List.length_append, List.length_cons]
      omega

theorem bodyReadAs_printed (value : String) : BodyReadAs (printedBody value) (.ok value) := by
  intro rest
  have enough := length_le_printedBody value.toList
  have read := readText_escaped value.toList rest (printedBody value ++ '"' :: rest).length.succ []
    (by
      rw [List.length_append, printedBody]
      omega)
  rw [← printedBody] at read
  simpa using read

theorem readAs_printText (value : String) : ReadAs (printText value).toList (.text value) := by
  rw [toList_printText]
  exact readAs_text (bodyReadAs_printed value)

/-! ## Objects from the texts of their members -/

theorem toList_memberText (member : String × String) :
    (memberText member).toList =
      '"' :: (printedBody member.1 ++ '"' :: ':' :: member.2.toList) := by
  simp [memberText, toList_printText]

theorem membersReadAs_intercalate (member : String × String) (members : List (String × String))
    (readable : ∀ m ∈ member :: members, ReadAs m.2.toList (parse m.2).1) :
    MembersReadAs
      ((String.intercalate "," ((member :: members).map memberText)).toList ++ ['\x7d'])
      ((member :: members).map fun m => (.ok m.1, (parse m.2).1)) := by
  have blank := allBlank_nil
  induction members generalizing member with
  | nil =>
      have read := members_last (bodyReadAs_printed member.1) blank
        (readable member List.mem_cons_self) blank
      simpa [toList_memberText] using read
  | cons next others induction =>
      have more := induction next fun m mem => readable m (List.mem_cons_of_mem _ mem)
      have read := members_cons (bodyReadAs_printed member.1) blank
        (readable member List.mem_cons_self) blank more
      simp only [List.map_cons, String.intercalate_cons_cons, String.toList_append,
        toList_memberText] at read ⊢
      simpa using read

theorem readAs_objectText {members : List (String × String)}
    (readable : ∀ member ∈ members, ReadAs member.2.toList (parse member.2).1) :
    ReadAs (objectText members).toList
      (ofMembers (members.map valued)) := by
  have text : (objectText members).toList =
      '\x7b' :: ((String.intercalate "," (members.map memberText)).toList ++ ['\x7d']) := by
    simp [objectText]
  rw [text, ofMembers, List.map_map]
  cases members with
  | nil => exact readAs_emptyObject allBlank_nil
  | cons member members => exact readAs_object (membersReadAs_intercalate member members readable)

theorem printMembers_eq (members : List (String × Value)) :
    printMembers (members.map fun (name, value) => (.ok name, value)) =
      String.intercalate "," (members.map fun member => memberText (spelled member)) := by
  induction members with
  | nil => simp [printMembers]
  | cons member others induction =>
      cases others with
      | nil => simp [printMembers, memberText, spelled, printName]
      | cons next rest =>
          have more := induction
          simp only [List.map_cons] at more
          simp [printMembers, more, memberText, spelled, printName, String.append_assoc]

theorem print_ofMembers (members : List (String × Value)) :
    print (ofMembers members) = objectText (members.map spelled) := by
  rw [ofMembers, print, printMembers_eq, objectText, List.map_map]
  rfl

/-- Members whose values are read back from their texts are themselves read back. -/
theorem map_valued_spelled {members : List (String × Value)}
    (readable : ∀ member ∈ members, parse (print member.2) = (member.2, none)) :
    (members.map spelled).map valued = members := by
  have same : ∀ member ∈ members, (valued ∘ spelled) member = id member := by
    intro member mem
    exact Prod.ext rfl (congrArg Prod.fst (readable member mem))
  rw [List.map_map, List.map_congr_left same, List.map_id]

/-! ## Values -/

theorem itemsReadAs_printItems (item : Value) (items : List Value)
    (readable : ∀ one ∈ item :: items, ReadAs (print one).toList one) :
    ItemsReadAs ((printItems (item :: items)).toList ++ [']']) (item :: items) := by
  have blank := allBlank_nil
  induction items generalizing item with
  | nil => exact items_last (readable item List.mem_cons_self) blank
  | cons next others induction =>
      have more := induction next fun one mem => readable one (List.mem_cons_of_mem _ mem)
      have read := items_cons (readable item List.mem_cons_self) blank more
      rw [printItems]
      simpa using read

theorem IsPlain.readAs {value : Value} (plain : IsPlain value) :
    ReadAs (print value).toList value := by
  induction plain with
  | null => exact readAs_null
  | bool value =>
      cases value with
      | true => exact readAs_true
      | false => exact readAs_false
  | natural value => exact readAs_natural value
  | negative low negative => exact readAs_negativeNumeral low negative
  | text value => exact readAs_printText value
  | @array items _ induction =>
      have text : (print (.array items none)).toList =
          '[' :: ((printItems items).toList ++ [']']) := by
        simp [print]
      rw [text]
      cases items with
      | nil => exact readAs_emptyArray allBlank_nil
      | cons item items => exact readAs_array (itemsReadAs_printItems item items induction)
  | @object members _ induction =>
      have parts : ∀ member ∈ members, parse (print member.2) = (member.2, none) :=
        fun member mem => (induction member mem).parse
      rw [print_ofMembers, ← congrArg ofMembers (map_valued_spelled parts)]
      apply readAs_objectText
      intro part mem
      rcases List.mem_map.mp mem with ⟨member, isMember, rfl⟩
      rw [spelled, parts member isMember]
      exact induction member isMember

/-- A printed value is read back. -/
theorem parse_print {value : Value} (plain : IsPlain value) : parse (print value) = (value, none) :=
  plain.readAs.parse

end StackSampler.Json
