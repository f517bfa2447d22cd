import StackSampler.Proofs.Json.Contents
import StackSampler.Subject.LayoutDocument

/-!
# Layouts are read back

Each structure of a layout is written faithfully to its form, whichever of its optional fields it
has; so is the layout, which is the object of them all.
-/

namespace StackSampler.Layout

open Json (Faithful IsPlain)

/-! ## Offsets -/

theorem place_faithful : Faithful place Json.ofNat :=
  Json.natural_faithful

theorem place?_faithful : Faithful place? (Json.ofOption Json.ofNat) :=
  place_faithful.option fun _ => nofun

@[simp]
theorem place_ofNat (offset : Offset) : place (Json.ofNat offset) = .ok offset :=
  place_faithful.read offset

@[simp]
theorem place?_ofOption (offset : Option Offset) :
    place? (Json.ofOption Json.ofNat offset) = .ok offset :=
  place?_faithful.read offset

@[simp]
theorem optional_place (offset : Option Offset) :
    Json.optional place (Json.ofOption Json.ofNat offset) = .ok offset :=
  place?_faithful.read offset

@[simp]
theorem isPlain_place (offset : Offset) : IsPlain (Json.ofNat offset) :=
  place_faithful.plain offset

@[simp]
theorem isPlain_place? (offset : Option Offset) : IsPlain (Json.ofOption Json.ofNat offset) :=
  place?_faithful.plain offset

/-! ## Structures of offsets -/

theorem Interpreter.faithful : Faithful form toJson where
  plain layout := .object (by simp)
  read layout := by simp [form, toJson, Json.Fields.get?]

theorem Thread.faithful : Faithful form toJson where
  plain layout := .object (by simp)
  read layout := by simp [form, toJson, Json.Fields.get?]

theorem Code.faithful : Faithful form toJson where
  plain layout := .object (by simp)
  read layout := by simp [form, toJson, Json.Fields.get?]

theorem VarObject.faithful : Faithful form toJson where
  plain layout := .object (by simp)
  read layout := by simp [form, toJson]

theorem Container.faithful : Faithful form toJson where
  plain layout := .object (by simp)
  read layout := by simp [form, toJson]

/-! ## Structures with other fields -/

theorem version_faithful : Faithful versionForm versionJson where
  plain version := by
    apply IsPlain.object
    simp [Json.byte_faithful.plain]
  read version := by
    have read := Json.byte_faithful.read
    simp [versionForm, versionJson, read]

theorem Owner.faithful : Faithful form toJson where
  plain layout := by
    apply IsPlain.object
    simp [Json.byte_faithful.plain]
  read layout := by
    have read := Json.byte_faithful.read
    simp [form, toJson, read]

theorem Task.faithful : Faithful form toJson where
  plain layout := by
    have low := layout.pendingState.le_toInt
    apply IsPlain.object
    simp [Json.isPlain_ofInt (show -2 ^ 63 ≤ layout.pendingState.toInt by omega)]
  read layout := by
    have read := Json.int32_ofInt layout.pendingState
    simp [form, toJson, read, Json.Fields.get?]

theorem Coroutine.faithful : Faithful form toJson where
  plain layout := by
    apply IsPlain.object
    simp [IsPlain.bool]
  read layout := by
    have read := Json.flag_faithful.read layout.frameInline
    simp [form, toJson, read, Json.Fields.get?]

/-! ## Instructions -/

namespace Instruction

/-- The members behind the kind are all kept. -/
theorem splitMembers_eq (kind : Kind) {members : Json.Fields}
    (others : List (Except Json.Flaw String × Json.Value))
    (read : ∀ member ∈ members, member.1 ≠ "kind" ∧ Json.wantFault depthLimit member.2 = none) :
    splitMembers none (some kind) others (members.map fun (name, value) => (.ok name, value)) =
      .ok (kind, others.reverse ++ members.map fun (name, value) => (.ok name, value)) := by
  induction members generalizing others with
  | nil => simp [splitMembers]
  | cons member rest induction =>
      rcases List.forall_mem_cons.mp read with ⟨⟨unkinded, wanted⟩, read⟩
      simp [splitMembers, unkinded, wanted, induction _ read]

/-- An instruction that names its kind first is read from its other members. -/
theorem form_kinded {kind : Kind} {word : String} {members : Json.Fields}
    (named : kindForm (.text word) = .ok kind)
    (read : ∀ member ∈ members, member.1 ≠ "kind" ∧ Json.wantFault depthLimit member.2 = none) :
    form (Json.ofMembers (("kind", .text word) :: members)) =
      contentForm kind (Json.ofMembers members) := by
  have split := splitMembers_eq kind [] read
  simp [form, Json.ofMembers, splitMembers, named] at split ⊢
  rw [split]
  rfl

theorem faithful : Faithful form toJson where
  plain
    | .index offset unit => by
      apply IsPlain.object
      simp [IsPlain.text, Json.word32_faithful.plain]
    | .pointer offset codeStart => by
      apply IsPlain.object
      simp [IsPlain.text]
  read
    | .index offset unit => by
      have unit_eq := Json.word32_faithful.read unit
      rw [toJson, form_kinded rfl (by simp [Json.ofNat, Json.ofInt, Json.wantFault])]
      simp [contentForm, unit_eq]
    | .pointer offset codeStart => by
      rw [toJson, form_kinded rfl (by simp [Json.ofNat, Json.wantFault])]
      simp [contentForm]

end Instruction

theorem Frame.faithful : Faithful form toJson where
  plain layout := by
    apply IsPlain.object
    have owner := (Owner.faithful.option fun _ => nofun).plain layout.owner
    simp [Instruction.faithful.plain, owner]
  read layout := by
    have owner := (Owner.faithful.option fun _ => nofun).read layout.owner
    simp [form, toJson, Instruction.faithful.read, owner, Json.Fields.get?]

/-! ## The whole layout -/

theorem layout_faithful : Faithful form toJson where
  plain layout := by
    apply IsPlain.object
    have containers := (Container.faithful.option fun _ => nofun).plain layout.containers
    simp [version_faithful.plain, Interpreter.faithful.plain, Thread.faithful.plain,
      Frame.faithful.plain, Code.faithful.plain, VarObject.faithful.plain, Task.faithful.plain,
      Coroutine.faithful.plain, containers]
  read layout := by
    have containers := (Container.faithful.option fun _ => nofun).read layout.containers
    simp [form, toJson, Json.Fields.get?, version_faithful.read, Interpreter.faithful.read,
      Thread.faithful.read, Frame.faithful.read, Code.faithful.read, VarObject.faithful.read,
      Task.faithful.read, Coroutine.faithful.read, containers]

/-- A layout is read back from its text. -/
theorem ofText_toText (layout : Layout) : ofText layout.toText = .ok layout :=
  layout_faithful.decode_parse_print layout

end StackSampler.Layout
