import Mathlib.Data.List.Nodup
import StackSampler.Json.Printing
import StackSampler.Json.Shape

/-!
# The fields of an object

An object whose members have distinct names gives the fields that are asked for, in whatever order
it names them and whatever stands beside them.  An object that holds just the fields gives all of
its members.
-/

namespace StackSampler.Json

variable {α : Type} {form : Form α} {fields : List Field} {members : Fields} {name : String}
  {value : Value}

/-! ## Single fields -/

@[simp]
theorem needed_name : (needed name form).name = name := by
  rfl

@[simp]
theorem needed_required : (needed name form).required = true := by
  rfl

@[simp]
theorem needed_check : (needed name form).check value = (form value).map fun _ => () := by
  rfl

@[simp]
theorem spare_name : (spare name form).name = name := by
  rfl

@[simp]
theorem spare_required : (spare name form).required = false := by
  rfl

@[simp]
theorem spare_check : (spare name form).check value = (form value).map fun _ => () := by
  rfl

@[simp]
theorem map_ok {β : Type} (use : α → β) (content : α) :
    (Except.ok content : Except Fault α).map use = .ok (use content) := by
  rfl

@[simp]
theorem ok_bind {β : Type} (use : α → Except Fault β) (content : α) :
    (Except.ok content : Except Fault α) >>= use = use content := by
  rfl

@[simp]
theorem pure_eq_ok (content : α) : (pure content : Except Fault α) = .ok content := by
  rfl

/-! ## All fields of an object -/

/-- The members that a field asks for. -/
def asked (fields : List Field) (members : Fields) : Fields :=
  members.filter fun member => (fields.find? (·.name == member.1)).isSome

/-- A member is of its field's form; one that nobody asks for can be passed over. -/
def Accepts (fields : List Field) (member : String × Value) : Prop :=
  match fields.find? (·.name == member.1) with
  | some field => field.check member.2 = .ok ()
  | none => skipFault member.2 = none

theorem fieldsOfMembers_eq (fields : List Field) (members : Fields) :
    ∀ found : Fields,
      ((found ++ members).map (·.1)).Nodup →
      (∀ member ∈ members, Accepts fields member) →
      (∀ field ∈ fields, field.required = true → field.name ∈ (found ++ members).map (·.1)) →
      fieldsOfMembers fields none found (members.map fun (name, value) => (.ok name, value)) =
        .ok (found ++ asked fields members) := by
  -- Names stay distinct between what was found and what is still to come.
  induction members with
  | nil =>
      intro found distinct accepted complete
      have all : (fields.all fun field => !field.required || found.any (·.1 == field.name)) =
          true := by
        rw [List.all_eq_true]
        intro field mem
        cases needs : field.required with
        | false => rfl
        | true =>
            rcases List.mem_map.mp (complete field mem needs) with ⟨member, given, named⟩
            rw [List.append_nil] at given
            exact List.any_eq_true.mpr ⟨member, given, beq_iff_eq.mpr named⟩
      simp [fieldsOfMembers, all, asked]
  | cons member others induction =>
      intro found distinct accepted complete
      rcases List.forall_mem_cons.mp accepted with ⟨first, accepted⟩
      rw [Accepts] at first
      cases wanted : fields.find? (·.name == member.1) with
      | none =>
          simp only [wanted] at first
          have unnamed : ∀ field ∈ fields, field.name ≠ member.1 := by
            simpa using List.find?_eq_none.mp wanted
          have rest := induction found
            (distinct.sublist (((List.sublist_cons_self _ _).append_left _).map _)) accepted (by
              intro field mem needs
              have named := complete field mem needs
              rw [List.map_append, List.map_cons, List.mem_append, List.mem_cons] at named
              rw [List.map_append, List.mem_append]
              rcases named with named | same | named
              · exact .inl named
              · exact absurd same (unnamed field mem)
              · exact .inr named)
          simpa [fieldsOfMembers, wanted, first, asked] using rest
      | some field =>
          simp only [wanted] at first
          have fresh : found.any (·.1 == member.1) = false := by
            rw [List.any_eq_false]
            intro earlier mem same
            rw [List.map_append, List.map_cons] at distinct
            apply (List.nodup_append.mp distinct).2.2 earlier.1 (List.mem_map_of_mem mem) member.1
              List.mem_cons_self
            exact beq_iff_eq.mp same
          have shape : found ++ member :: others = (found ++ [member]) ++ others := by simp
          rw [shape] at distinct complete
          have rest := induction (found ++ [member]) distinct accepted complete
          simpa [fieldsOfMembers, wanted, first, fresh, asked] using rest

/-- An object gives the fields that are asked for. -/
theorem fieldsOf_ofMembers (distinct : (members.map (·.1)).Nodup)
    (accepted : ∀ member ∈ members, Accepts fields member)
    (complete : ∀ field ∈ fields, field.required = true → field.name ∈ members.map (·.1)) :
    fieldsOf fields (ofMembers members) = .ok (asked fields members) := by
  apply fieldsOfMembers_eq fields members [] distinct accepted complete

/-- An object that holds just the fields that are asked for gives them all. -/
@[simp]
theorem fieldsOf_eq (distinct : (members.map (·.1)).Nodup)
    (accepted : ∀ member ∈ members, ∃ field, fields.find? (·.name == member.1) = some field ∧
      field.check member.2 = .ok ())
    (complete : ∀ field ∈ fields, field.required = true → field.name ∈ members.map (·.1)) :
    fieldsOf fields (ofMembers members) = .ok members := by
  have all : asked fields members = members := by
    apply List.filter_eq_self.mpr
    intro member mem
    rcases accepted member mem with ⟨field, found, -⟩
    rw [found]
    rfl
  rw [fieldsOf_ofMembers distinct _ complete, all]
  intro member mem
  rcases accepted member mem with ⟨field, found, checked⟩
  rw [Accepts, found]
  exact checked

/-! ## The value of a field -/

@[simp]
theorem value?_nil : Fields.value? [] name = none := by
  rfl

@[simp]
theorem value?_cons {first : String} {others : Fields} :
    Fields.value? ((first, value) :: others) name =
      if first = name then some value else others.value? name := by
  by_cases same : first = name <;> simp [Fields.value?, same]

@[simp]
theorem get_cons {first : String} {others : Fields} :
    Fields.get ((first, value) :: others) name form =
      if first = name then form value else others.get name form := by
  by_cases same : first = name <;> simp [Fields.get, same]

@[simp]
theorem getD_cons {first : String} {others : Fields} {default : α} :
    Fields.getD ((first, value) :: others) name form default =
      if first = name then form value else others.getD name form default := by
  by_cases same : first = name <;> simp [Fields.getD, same]

theorem value?_asked (known : name ∈ fields.map (·.name)) :
    (asked fields members).value? name = members.value? name := by
  rcases List.mem_map.mp known with ⟨field, mem, rfl⟩
  rw [Fields.value?, Fields.value?, asked, List.find?_filter]
  congr 2
  funext member
  cases named : member.1 == field.name with
  | false => simp
  | true =>
      have found : (fields.find? (·.name == member.1)).isSome = true := by
        rw [List.find?_isSome]
        exact ⟨field, mem, beq_iff_eq.mpr (beq_iff_eq.mp named).symm⟩
      simp [found]

theorem value?_eq_some (distinct : (members.map (·.1)).Nodup) (mem : (name, value) ∈ members) :
    members.value? name = some value := by
  induction members with
  | nil => cases mem
  | cons member others induction =>
      rw [List.map_cons, List.nodup_cons] at distinct
      rcases List.mem_cons.mp mem with same | mem
      · subst same
        simp [Fields.value?]
      · have other : member.1 ≠ name := by
          rintro rfl
          exact distinct.1 (List.mem_map_of_mem (f := (·.1)) mem)
        have rest := induction distinct.2 mem
        rw [Fields.value?] at rest ⊢
        rwa [List.find?_cons_of_neg (by simpa using other)]

theorem value?_eq_none (absent : name ∉ members.map (·.1)) :
    members.value? name = none := by
  rw [Fields.value?, Option.map_eq_none_iff, List.find?_eq_none]
  intro member mem named
  apply absent
  rw [← beq_iff_eq.mp named]
  exact List.mem_map_of_mem mem

end StackSampler.Json
