/-!
# Replacing parts of a text

Every occurrence of a part is replaced, from left to right and without overlap.
-/

namespace StackSampler.Text

/-- The characters behind `part`, if the text starts with it. -/
def behind? : List Char → List Char → Option (List Char)
  | [], text => some text
  | _ :: _, [] => none
  | c :: part, d :: text => if c = d then behind? part text else none

/-- What stands behind a part is what is left when the part is taken away. -/
theorem eq_append_of_behind? {part text rest : List Char} (h : behind? part text = some rest) :
    text = part ++ rest := by
  induction part generalizing text with
  | nil => simpa [behind?] using h
  | cons c part ih =>
      cases text with
      | nil => simp [behind?] at h
      | cons d text =>
          simp only [behind?] at h
          split at h
          · next same => rw [same, ih h, List.cons_append]
          · simp at h

/-- A part stands in front of whatever is put behind it. -/
@[simp]
theorem behind?_append (part rest : List Char) : behind? part (part ++ rest) = some rest := by
  induction part with
  | nil => rfl
  | cons c part ih => simp [behind?, ih]

theorem behind?_eq_some_iff {part text rest : List Char} :
    behind? part text = some rest ↔ text = part ++ rest := by
  constructor
  · exact eq_append_of_behind?
  · rintro rfl
    exact behind?_append part rest

/-- What is behind a nonempty part is shorter than the text. -/
theorem length_lt_of_behind? {part text after : List Char}
    (h : behind? part text = some after) (nonempty : part ≠ []) :
    after.length < text.length := by
  rw [eq_append_of_behind? h, List.length_append]
  have : 0 < part.length := List.length_pos_iff.mpr nonempty
  omega

/-- The characters with every occurrence of a nonempty part replaced. -/
def replaceChars (part replacement : List Char) (text : List Char) : List Char :=
  match text with
  | [] => []
  | c :: rest =>
      match h : behind? part (c :: rest) with
      | some after =>
          if empty : part = [] then c :: replaceChars part replacement rest
          else
            have : after.length < (c :: rest).length := length_lt_of_behind? h empty
            replacement ++ replaceChars part replacement after
      | none => c :: replaceChars part replacement rest
termination_by text.length
decreasing_by
  · exact Nat.lt_succ_self _
  · assumption
  · exact Nat.lt_succ_self _

/-- The text with every occurrence of a nonempty part replaced. -/
def replace (text part replacement : String) : String :=
  String.ofList (replaceChars part.toList replacement.toList text.toList)

/-- The text before a given end, if it has that end. -/
def withoutEnd? (ending text : List Char) : Option (List Char) :=
  (behind? ending.reverse text.reverse).map List.reverse

end StackSampler.Text
