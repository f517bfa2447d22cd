import StackSampler.Proofs.Configuration.Intervals

/-!
# Configurations handed to a launched program

A program that is launched finds its configuration in variables, which have been written from the
configuration of the program that launches it.  The interval and the exposure time go through
decimal text, switches are spelled, and the output path is handed over as it is.  The target, the
depth of stacks and the symbols of the evaluation loop have no variables.

The main statement is `ofVariables_toVariables`.
-/

namespace StackSampler.Configuration

/-! ## Values as they are written -/

/-- A number is read from its decimal text, which has no blanks. -/
theorem parseNumber_toString (option : String) (number : UInt64) :
    parseNumber option (toString number.toNat) = .ok number := by
  have numeral := Text.isNumeral_toDigits number.toNat
  rw [parseNumber_eq_ok_iff, Nat.toString_eq_repr, Nat.toList_repr,
    Text.trimBlanks_eq_self numeral.isTrimmed]
  exact numeral

/-- Decimal text is an interval without unit and without blanks. -/
theorem isInterval_toDigits (number : Nat) : IsInterval (Nat.toDigits 10 number) number 1 := by
  have spelled := IsInterval.spelled Text.allBlank_nil (Text.isNumeral_toDigits number)
    Text.allBlank_nil .bare Text.allBlank_nil
  simpa only [List.nil_append, List.append_nil] using spelled

/-- An interval is read from the decimal text of its microseconds. -/
theorem parseInterval_toString (interval : UInt64) :
    parseInterval (toString interval.toNat) = .ok interval := by
  rw [parseInterval_eq_ok_iff, Nat.toString_eq_repr, Nat.toList_repr]
  refine ⟨interval.toNat, 1, isInterval_toDigits interval.toNat, interval.toNat_lt, ?_, ?_⟩
  · rw [Nat.mul_one]
    exact interval.toNat_lt
  · rw [Nat.mul_one]

/-- A switch is read as it was set. -/
theorem parseFlag_flagText (option : String) (value : Bool) :
    parseFlag option (flagText value) = .ok value := by
  cases value <;> rfl

/-! ## Variables -/

section

variable {α : Type} {lookup : String → Option String} {name : String}
  {parse : String → String → Except ConfigError α}

theorem setting_of_some {text : String} {value : α} (isSet : lookup name = some text)
    (parsed : parse name text = .ok value) : setting lookup name parse = .ok (some value) := by
  rw [setting, isSet]
  show (parse name text).map some = _
  rw [parsed]
  rfl

theorem setting_of_none (unset : lookup name = none) : setting lookup name parse = .ok none := by
  rw [setting, unset]

end

variable (configuration : Configuration)

/-- The exposure time is only written if there is one. -/
theorem lookup_exposure :
    configuration.toVariables.lookup exposureVariable =
      configuration.exposure.map fun seconds => toString seconds.toNat := by
  rw [toVariables]
  cases configuration.exposure <;> rfl

/-- No process is named to the launched program. -/
theorem lookup_processes :
    configuration.toVariables.lookup pidVariable = none ∧
      configuration.toVariables.lookup whereVariable = none := by
  rw [toVariables]
  cases configuration.exposure <;> exact ⟨rfl, rfl⟩

/-- A configuration as far as its variables tell it; the rest is as usual. -/
def launched : Configuration :=
  { configuration with
    target := ({} : Configuration).target
    maxDepth := ({} : Configuration).maxDepth
    evalSymbols := ({} : Configuration).evalSymbols }

theorem ofVariables_eq_launched :
    ofVariables configuration.toVariables = .ok configuration.launched := by
  have interval : setting (configuration.toVariables.lookup ·) intervalVariable
      (fun _ value => parseInterval value) = .ok (some configuration.interval) :=
    setting_of_some rfl (parseInterval_toString configuration.interval)
  have cpu : setting (configuration.toVariables.lookup ·) cpuVariable parseFlag =
      .ok (some (configuration.timeMode == .cpu)) :=
    setting_of_some rfl (parseFlag_flagText _ _)
  have memory : setting (configuration.toVariables.lookup ·) memoryVariable parseFlag =
      .ok (some configuration.memory) :=
    setting_of_some rfl (parseFlag_flagText _ _)
  have native : setting (configuration.toVariables.lookup ·) nativeVariable parseFlag =
      .ok (some configuration.native) :=
    setting_of_some rfl (parseFlag_flagText _ _)
  have stealth : setting (configuration.toVariables.lookup ·) stealthVariable parseFlag =
      .ok (some configuration.stealth) :=
    setting_of_some rfl (parseFlag_flagText _ _)
  have output : configuration.toVariables.lookup outputVariable = some configuration.output := rfl
  have exposure : setting (configuration.toVariables.lookup ·) exposureVariable parseNumber =
      .ok configuration.exposure := by
    have written := configuration.lookup_exposure
    cases isSet : configuration.exposure with
    | none =>
        rw [isSet] at written
        exact setting_of_none written
    | some seconds =>
        rw [isSet] at written
        exact setting_of_some written (parseNumber_toString exposureVariable seconds)
  have pid : setting (configuration.toVariables.lookup ·) pidVariable parsePid = .ok none :=
    setting_of_none configuration.lookup_processes.1
  have wherePid : setting (configuration.toVariables.lookup ·) whereVariable parsePid = .ok none :=
    setting_of_none configuration.lookup_processes.2
  have timeMode : (if (some (configuration.timeMode == .cpu)) = some true then TimeMode.cpu
      else ({} : Configuration).timeMode) = configuration.timeMode := by
    cases configuration.timeMode <;> rfl
  simp only [ofVariables, ofLookup, interval, cpu, memory, native, stealth, output, exposure, pid,
    wherePid, bind, Except.bind, Target.select, List.isEmpty_nil, if_true, timeMode]
  rfl

/--
A launched program reads the configuration of the program that launches it, but for the three parts
that have no variables and are as usual; so it reads an equal one exactly if these are as usual there
as well.
-/
theorem ofVariables_toVariables :
    ofVariables configuration.toVariables =
        .ok { configuration with
          target := ({} : Configuration).target
          maxDepth := ({} : Configuration).maxDepth
          evalSymbols := ({} : Configuration).evalSymbols } ∧
      (ofVariables configuration.toVariables = .ok configuration ↔
        configuration.target = ({} : Configuration).target ∧
          configuration.maxDepth = ({} : Configuration).maxDepth ∧
          configuration.evalSymbols = ({} : Configuration).evalSymbols) := by
  refine ⟨configuration.ofVariables_eq_launched, ?_⟩
  rw [ofVariables_eq_launched, Except.ok.injEq]
  constructor
  · intro same
    rw [← same]
    exact ⟨rfl, rfl, rfl⟩
  · rintro ⟨target, maxDepth, evalSymbols⟩
    rw [launched, ← target, ← maxDepth, ← evalSymbols]

end StackSampler.Configuration
