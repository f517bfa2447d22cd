import StackSampler.Configuration.Document
import StackSampler.Proofs.Json.Contents
import StackSampler.Proofs.Json.Grammar
import StackSampler.Proofs.Subject.Documents

/-!
# Configurations are read back

A configuration is read back from its own text, and from every text that arranges its members
otherwise: in another order, with members of other names among them, and without members whose
value is the standard one anyway.
-/

namespace StackSampler

open Json (Faithful IsPlain)

/-! ## The parts of a configuration -/

theorem TimeMode.faithful :
    Faithful (Json.choice TimeMode.choices) fun mode => .text mode.name where
  plain mode := .text mode.name
  read mode := by cases mode <;> rfl

theorem texts_faithful : Faithful (Json.listOf Json.string) (Json.ofList .text) :=
  Json.string_faithful.list

theorem exposure_faithful :
    Faithful (Json.optional Json.natural) (Json.ofOption Json.ofNat) :=
  Json.natural_faithful.option fun _ => nofun

namespace Target

/-- A target that names its kind in front of its value, if it has one. -/
theorem form_kinded {kind : Kind} (word : String) (content : Option Json.Value)
    (named : Json.choice kinds (.text word) = .ok kind) :
    form (Json.ofMembers (("kind", .text word) :: (content.map ("value", ·)).toList)) =
      match content with
      | some content => ofContent kind content
      | none => ofKind? kind := by
  show (do
    let fields ← Json.fieldsOf
      [Json.needed "kind" (Json.choice kinds), Json.spare "value" fun value => .ok value]
      (Json.ofMembers (("kind", .text word) :: (content.map ("value", ·)).toList))
    let kind ← fields.get "kind" (Json.choice kinds)
    match fields.value? "value" with
    | some content => ofContent kind content
    | none => ofKind? kind) = _
  cases content <;> simp [named]

theorem faithful : Faithful form toJson where
  plain
    | .current => .object (by simp [IsPlain.text])
    | .launch command => .object (by simp [IsPlain.text, texts_faithful.plain])
    | .attach pid | .where pid => by
      have low := pid.le_toInt
      apply IsPlain.object
      simp [IsPlain.text, Json.isPlain_ofInt (show -2 ^ 63 ≤ pid.toInt by omega)]
  read
    | .current => form_kinded "current" none rfl
    | .launch command => by
      have read := form_kinded "launch" (some (Json.ofList .text command)) rfl
      exact read.trans (by simp [ofContent, texts_faithful.read])
    | .attach pid => by
      have read := form_kinded "attach" (some (Json.ofInt pid.toInt)) rfl
      exact read.trans (by simp [ofContent, Json.int32_ofInt])
    | .where pid => by
      have read := form_kinded "where" (some (Json.ofInt pid.toInt)) rfl
      exact read.trans (by simp [ofContent, Json.int32_ofInt])

end Target

namespace Configuration

variable {configuration : Configuration}

theorem members_plain : ∀ member ∈ configuration.members, IsPlain member.2 := by
  simp [members, IsPlain.bool, IsPlain.text, Json.natural_faithful.plain, exposure_faithful.plain,
    Target.faithful.plain, texts_faithful.plain]

theorem members_accepted : ∀ member ∈ configuration.members, Json.Accepts fields member := by
  simp [members, Json.Accepts, fields, Json.natural_faithful.read, TimeMode.faithful.read,
    Json.flag_faithful.read, Json.string_faithful.read, exposure_faithful.read,
    Target.faithful.read, texts_faithful.read]

theorem members_distinct : (configuration.members.map (·.1)).Nodup := by
  simp [members]

theorem names_members (configuration : Configuration) :
    configuration.members.map (·.1) = fields.map (·.name) := by
  rfl

/-! ## Arrangements of the members -/

/--
Another way to write a configuration: some of its members are kept, and they stand in any order
among members of other names with any values.
-/
structure Arrangement (configuration : Configuration) where
  kept : Json.Fields
  /-- Members of other names, with the texts of their values. -/
  others : List (String × String)
  /-- All members in their order, with the texts of their values. -/
  listed : List (String × String)
  kept_sublist : kept.Sublist configuration.members
  standard_of_not_kept : ∀ member ∈ configuration.members, member ∉ kept →
    member ∈ ({} : Configuration).members
  others_distinct : (others.map (·.1)).Nodup
  others_foreign : ∀ member ∈ others, member.1 ∉ fields.map (·.name)
  others_json : ∀ member ∈ others, Json.IsJson .value member.2.toList
  listed_perm : listed.Perm (kept.map Json.spelled ++ others)

namespace Arrangement

/-- The text of an arrangement. -/
def text (arrangement : Arrangement configuration) : String :=
  Json.objectText arrangement.listed

variable (arrangement : Arrangement configuration)

/-- The members of an arrangement with their values. -/
def values : Json.Fields :=
  arrangement.listed.map Json.valued

theorem mem_members {member : String × Json.Value} (mem : member ∈ arrangement.kept) :
    member ∈ configuration.members :=
  arrangement.kept_sublist.subset mem

theorem parse_kept {member : String × Json.Value} (mem : member ∈ arrangement.kept) :
    Json.parse (Json.print member.2) = (member.2, none) :=
  Json.parse_print (members_plain member (arrangement.mem_members mem))

theorem values_perm :
    arrangement.values.Perm (arrangement.kept ++ arrangement.others.map Json.valued) := by
  have perm := arrangement.listed_perm.map Json.valued
  rwa [List.map_append, Json.map_valued_spelled fun _ mem => arrangement.parse_kept mem] at perm

theorem values_distinct : (arrangement.values.map (·.1)).Nodup := by
  apply (arrangement.values_perm.map _).nodup_iff.mpr
  rw [List.map_append, List.map_map, List.nodup_append]
  refine ⟨members_distinct.sublist (arrangement.kept_sublist.map _),
    arrangement.others_distinct, ?_⟩
  rintro name kept _ other rfl
  rcases List.mem_map.mp other with ⟨member, mem, rfl⟩
  apply arrangement.others_foreign member mem
  rw [← names_members configuration]
  exact (arrangement.kept_sublist.map _).subset kept

theorem values_accepted : ∀ member ∈ arrangement.values, Json.Accepts fields member := by
  intro member mem
  rcases List.mem_append.mp (arrangement.values_perm.mem_iff.mp mem) with kept | other
  · exact members_accepted member (arrangement.mem_members kept)
  · rcases List.mem_map.mp other with ⟨stated, isOther, rfl⟩
    have unknown : fields.find? (·.name == stated.1) = none := by
      rw [List.find?_eq_none]
      intro field known named
      apply arrangement.others_foreign stated isOther
      rw [← beq_iff_eq.mp named]
      exact List.mem_map_of_mem known
    rcases (arrangement.others_json stated isOther).passes with ⟨value, read, passes⟩
    rw [Json.Accepts, Json.valued, unknown, read.parse]
    exact passes

theorem parse_text : Json.parse arrangement.text = (Json.ofMembers arrangement.values, none) := by
  apply Json.ReadAs.parse
  apply Json.readAs_objectText
  intro member mem
  rcases List.mem_append.mp (arrangement.listed_perm.mem_iff.mp mem) with kept | other
  · rcases List.mem_map.mp kept with ⟨own, isKept, rfl⟩
    rw [Json.spelled, arrangement.parse_kept isKept]
    exact (members_plain own (arrangement.mem_members isKept)).readAs
  · rcases (arrangement.others_json member other).passes with ⟨value, read, -⟩
    rwa [read.parse]

/-- The fields that an arrangement gives. -/
def given : Json.Fields :=
  Json.asked fields arrangement.values

theorem fieldsOf_values :
    Json.fieldsOf fields (Json.ofMembers arrangement.values) = .ok arrangement.given := by
  apply Json.fieldsOf_ofMembers arrangement.values_distinct arrangement.values_accepted
  simp [fields]

theorem not_mem_values {member : String × Json.Value} (own : member ∈ configuration.members)
    (left : member ∉ arrangement.kept) : member.1 ∉ arrangement.values.map (·.1) := by
  intro named
  rcases List.mem_map.mp named with ⟨found, mem, same⟩
  rcases List.mem_append.mp (arrangement.values_perm.mem_iff.mp mem) with kept | other
  · have first := Json.value?_eq_some members_distinct own
    have second := Json.value?_eq_some members_distinct (arrangement.mem_members kept)
    rw [same] at second
    apply left
    rwa [← Prod.ext same (Option.some.inj (second.symm.trans first))]
  · rcases List.mem_map.mp other with ⟨stated, isOther, rfl⟩
    apply arrangement.others_foreign stated isOther
    rw [← names_members configuration]
    exact List.mem_map.mpr ⟨member, own, same.symm⟩

/--
Each field has the content it has in the configuration, whether it is kept or left out because it
is the standard one.
-/
theorem getD_given {α : Type} {form : Json.Form α} {toJson : α → Json.Value}
    (faithful : Faithful form toJson) (name : String) (field : Configuration → α)
    (own : ∀ one : Configuration, (name, toJson (field one)) ∈ one.members) :
    arrangement.given.getD name form (field {}) = .ok (field configuration) := by
  have known : name ∈ fields.map (·.name) := by
    rw [← names_members configuration]
    exact List.mem_map_of_mem (own configuration)
  rw [Json.Fields.getD, given, Json.value?_asked known]
  by_cases kept : (name, toJson (field configuration)) ∈ arrangement.kept
  · have mem := arrangement.values_perm.mem_iff.mpr (List.mem_append_left _ kept)
    rw [Json.value?_eq_some arrangement.values_distinct mem]
    exact faithful.read (field configuration)
  · have standard := arrangement.standard_of_not_kept _ (own configuration) kept
    -- What was left out is written alike in both, so its contents are equal too.
    have same : toJson (field configuration) = toJson (field {}) := by
      have left := Json.value?_eq_some members_distinct standard
      have right := Json.value?_eq_some members_distinct (own {})
      exact Option.some.inj (left.symm.trans right)
    rw [Json.value?_eq_none (arrangement.not_mem_values (own configuration) kept)]
    exact (faithful.read (field {})).symm.trans
      ((congrArg form same.symm).trans (faithful.read (field configuration)))

theorem form_values : form (Json.ofMembers arrangement.values) = .ok configuration := by
  have interval := arrangement.getD_given Json.natural_faithful "interval_us" (·.interval)
    (by simp [members])
  have timeMode := arrangement.getD_given TimeMode.faithful "time_mode" (·.timeMode)
    (by simp [members])
  have native := arrangement.getD_given Json.flag_faithful "native" (·.native) (by simp [members])
  have memory := arrangement.getD_given Json.flag_faithful "memory" (·.memory) (by simp [members])
  have output := arrangement.getD_given Json.string_faithful "output" (·.output)
    (by simp [members])
  have stealth := arrangement.getD_given Json.flag_faithful "stealth" (·.stealth)
    (by simp [members])
  have exposure := arrangement.getD_given exposure_faithful "exposure_s" (·.exposure)
    (by simp [members])
  have target := arrangement.getD_given Target.faithful "target" (·.target) (by simp [members])
  have maxDepth := arrangement.getD_given Json.natural_faithful "max_depth" (·.maxDepth)
    (by simp [members])
  have evalSymbols := arrangement.getD_given texts_faithful "eval_symbols" (·.evalSymbols)
    (by simp [members])
  simp only [form, fieldsOf_values, Json.Fields.get?, Json.ok_bind, interval, timeMode, native,
    memory, output, stealth, exposure, target, maxDepth, evalSymbols, Json.pure_eq_ok]

/-- Every arrangement of its members is read as the configuration. -/
theorem ofText_text : ofText arrangement.text = .ok configuration := by
  rw [ofText, arrangement.parse_text, Json.decode, arrangement.form_values]

end Arrangement

/-- The arrangement of all members in their own order, and of nothing else. -/
def plainArrangement (configuration : Configuration) : Arrangement configuration where
  kept := configuration.members
  others := []
  listed := configuration.members.map Json.spelled
  kept_sublist := .refl _
  standard_of_not_kept _ mem left := absurd mem left
  others_distinct := .nil
  others_foreign := nofun
  others_json := nofun
  listed_perm := by rw [List.append_nil]

theorem text_plainArrangement (configuration : Configuration) :
    configuration.plainArrangement.text = configuration.toText :=
  (Json.print_ofMembers configuration.members).symm

end Configuration

/--
What is handed over as text is read back: a configuration from its own text and from every other
arrangement of its members, and a layout whichever of its optional fields it has.
-/
theorem documents_readBack :
    (∀ configuration : Configuration,
        Configuration.ofText configuration.toText = .ok configuration) ∧
      (∀ (configuration : Configuration) (arrangement : configuration.Arrangement),
        Configuration.ofText arrangement.text = .ok configuration) ∧
      ∀ layout : Layout, Layout.ofText layout.toText = .ok layout := by
  refine ⟨fun configuration => ?_, fun _ arrangement => arrangement.ofText_text,
    Layout.ofText_toText⟩
  rw [← Configuration.text_plainArrangement]
  exact configuration.plainArrangement.ofText_text

/-- A command to start, an odd path and an interval; everything else is as usual. -/
def sampleConfiguration : Configuration where
  interval := 2500
  output := "a\"\\\u0001é"
  target := .launch ["run", "-x"]

/--
The members of the sample that are not as usual, the last of them first, behind a member that
nobody knows.
-/
def sampleArrangement : sampleConfiguration.Arrangement where
  kept := [("interval_us", Json.ofNat 2500), ("output", .text "a\"\\\u0001é"),
    ("target", Target.toJson (.launch ["run", "-x"]))]
  others := [("note", "[1.5e3, \"\\ud800\"]")]
  listed := [("note", "[1.5e3, \"\\ud800\"]"),
    ("target", Json.print (Target.toJson (.launch ["run", "-x"]))),
    ("output", Json.print (.text "a\"\\\u0001é")), ("interval_us", Json.print (Json.ofNat 2500))]
  kept_sublist := by
    apply List.Sublist.cons_cons
    iterate 3 apply List.Sublist.cons
    apply List.Sublist.cons_cons
    iterate 2 apply List.Sublist.cons
    apply List.Sublist.cons_cons
    exact List.nil_sublist _
  standard_of_not_kept := by
    simp [Configuration.members, sampleConfiguration]
  others_distinct := by decide
  others_foreign := by decide
  others_json := by
    have number : Json.IsJson .value (['1'] ++ ['.', '5'] ++ ['e', '3']) :=
      .unsigned (.digits (by decide) (by decide) nofun) (.digits (by decide) nofun)
        (.digits (.inl rfl) .absent (by decide) nofun)
    have lone : Json.IsJson .value ('"' :: (['\\', 'u', 'd', '8', '0', '0'] ++ ['"'])) :=
      .text (.code rfl rfl rfl rfl .nil)
    have blank : Json.AllBlank [] := nofun
    have space : Json.AllBlank [' '] := by
      simp [Json.AllBlank, Json.isSpace]
    have items := Json.IsJson.item blank number blank (.lastItem space lone blank)
    simpa using items.array
  listed_perm := List.reverse_perm [_, _, _, _]

/-- The text of the sample's arrangement. -/
def sampleText : String :=
  "\x7b\"note\":[1.5e3, \"\\ud800\"],"
    ++ "\"target\":\x7b\"kind\":\"launch\",\"value\":[\"run\",\"-x\"]\x7d,"
    ++ "\"output\":\"a\\\"\\\\\\u0001é\",\"interval_us\":2500\x7d"

theorem documents_readBack_rearranged :
    Configuration.ofText sampleText = .ok sampleConfiguration := by
  have text : sampleArrangement.text = sampleText := by
    decide +kernel
  have read := documents_readBack.2.1 sampleConfiguration sampleArrangement
  rwa [text] at read

end StackSampler
