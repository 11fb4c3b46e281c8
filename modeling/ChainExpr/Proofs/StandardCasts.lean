import ChainExpr.Proofs.CastSearch
import ChainExpr.Proofs.Fitting
import ChainExpr.Types.Standard

namespace ChainExpr

open Conversion

/-- The standard conversions by the side that declares them, their source and their target. -/
def standardConversion? : Side → TypeName → TypeName → Option Conversion
  | .target, .null, .boolean => some (blank (.boolean false))
  | .target, .null, .number => some (blank (.number 0))
  | .target, .null, .string => some (blank (.string ""))
  | .target, .null, .datatable => some (blank (.datatable .empty))
  | .target, .null, .pointseries => some (blank (.pointseries .empty))
  | .target, .boolean, .number => some booleanToNumber
  | .target, .boolean, .string => some booleanToString
  | .target, .number, .boolean => some numberToBoolean
  | .target, .number, .string => some numberToString
  | .target, .string, .boolean => some stringToBoolean
  | .target, .string, .number => some stringToNumber
  | .target, .pointseries, .datatable => some seriesToDatatable
  | .source, .datatable, .render => some datatableToRender
  | .source, .pointseries, .render => some seriesToRender
  | _, _, _ => none

theorem declared?_standard (side : Side) (source target : TypeName) :
    TypeRegistry.standard.declared? side source target = standardConversion? side source target := by
  cases side <;> cases source <;> cases target <;> rfl

/-- The value is a text that is neither blank nor a numeral, so that it says no number. -/
def Value.SaysNoNumber (value : Value) : Prop :=
  ∃ s, value = .string s ∧ Text.trim s.toList ≠ [] ∧ Number.ofChars? (Text.trim s.toList) = none

theorem Value.SaysNoNumber.string {value : Value} (h : value.SaysNoNumber) : ∃ s, value = .string s :=
  h.imp fun _ hs => hs.1

/-- How a text that says no number is refused. -/
def noNumber (s : String) : RuntimeError := .function "cast:number" ("'" ++ s ++ "' is not a number")

theorem textNumber?_eq_none_iff {s : String} :
    textNumber? s = none ↔ (Value.string s).SaysNoNumber := by
  rw [textNumber?]
  cases h : Text.trim s.toList <;> simp [Value.SaysNoNumber, h]

variable {side : Side} {value converted : Value} {target : TypeName} {conversion : Conversion}
  {acceptable : List TypeName}

/-- A standard conversion makes something of every value of its source, unless it is to make a number of
a text that says none. -/
theorem standardConversion?_converts
    (h : standardConversion? side value.type target = some conversion)
    (hnumber : ¬ (target = .number ∧ value.SaysNoNumber)) :
    ∃ converted, conversion.convert value = .ok converted := by
  cases value with
  | string s =>
    cases side <;> cases target <;> cases h
    · exact ⟨_, rfl⟩
    · cases hs : textNumber? s with
      | some x => exact ⟨.number x, by simp [stringToNumber, standard, hs]⟩
      | none => exact absurd ⟨rfl, textNumber?_eq_none_iff.mp hs⟩ hnumber
  | _ => cases side <;> cases target <;> cases h <;> exact ⟨_, rfl⟩

/-- A text that says no number is refused as such. -/
theorem standardConversion?_refuses {s : String} (hs : (Value.string s).SaysNoNumber)
    (h : standardConversion? side .string .number = some conversion) :
    conversion.convert (.string s) = .error (noNumber s) := by
  cases side <;> cases h
  simp [stringToNumber, standard, textNumber?_eq_none_iff.mpr hs, noNumber]

/-- The failure for a text that says no number is none for a value of a wrong type. -/
theorem noNumber_ne_unexpected (s : String) (expected : TypeName) (other : Value) :
    .error (noNumber s) ≠ unexpected expected other := by
  intro h
  have hmessage := (RuntimeError.function.inj (Except.error.inj h)).2
  have hfirst := congrArg (·.toList.head?) hmessage
  simp at hfirst

namespace TypeRegistry

/-- A standard conversion between the type of a value and another one does not meet a value that it is
not made for. -/
theorem standard_not_unexpected (h : standard.declared? side value.type target = some conversion)
    (expected : TypeName) (other : Value) : conversion.convert value ≠ unexpected expected other := by
  rw [declared?_standard] at h
  by_cases hnumber : target = .number ∧ value.SaysNoNumber
  · obtain ⟨rfl, hnone⟩ := hnumber
    obtain ⟨s, rfl⟩ := hnone.string
    rw [standardConversion?_refuses hnone h]
    exact noNumber_ne_unexpected s expected other
  · obtain ⟨converted, hconverts⟩ := standardConversion?_converts h hnumber
    simp [hconverts, unexpected]

/-- All moves miss where the value has none of the types and there is no way to any of them, save to
number for a text that says none. -/
theorem standard_missed_iff :
    (∀ move ∈ standard.moves value.type acceptable, move.Misses value) ↔
      value.type ∉ acceptable ∧ ∀ target ∈ acceptable,
        (∀ side, standard.declared? side value.type target = none) ∨
          target = .number ∧ value.SaysNoNumber := by
  constructor
  · intro hmissed
    have hown : value.type ∉ acceptable := by
      intro hown
      obtain ⟨error, hfails⟩ := hmissed .keep (mem_moves.mpr (.inl ⟨hown, rfl⟩))
      cases hfails
    refine ⟨hown, fun target htarget => ?_⟩
    by_cases hnumber : target = .number ∧ value.SaysNoNumber
    · exact .inr hnumber
    · refine .inl fun side => ?_
      by_contra hdeclared
      obtain ⟨conversion, hdeclared⟩ := Option.ne_none_iff_exists'.mp hdeclared
      have hother : target ≠ value.type := fun hsame => hown (hsame ▸ htarget)
      obtain ⟨error, hfails⟩ := hmissed (.convert side target conversion)
        (mem_moves.mpr (.inr ⟨target, htarget, hother, side, conversion, hdeclared, rfl⟩))
      rw [declared?_standard] at hdeclared
      obtain ⟨converted, hconverts⟩ := standardConversion?_converts hdeclared hnumber
      cases hconverts.symm.trans hfails
  · rintro ⟨hown, hnowhere⟩ move hmove
    rcases mem_moves.mp hmove with ⟨hin, _⟩ | ⟨target, htarget, _, side, conversion, hdeclared, rfl⟩
    · exact absurd hin hown
    · rcases hnowhere target htarget with hnone | ⟨rfl, hnone⟩
      · rw [hnone side] at hdeclared
        cases hdeclared
      · rw [declared?_standard] at hdeclared
        obtain ⟨s, rfl⟩ := hnone.string
        exact ⟨noNumber s, standardConversion?_refuses hnone hdeclared⟩

/-- The only reason that a standard move gives for a miss is that a text says no number. -/
theorem mem_standard_failures {reason : String} :
    reason ∈ (standard.moves value.type acceptable).filterMap (Move.failure? value) ↔
      .number ∈ acceptable ∧ ∃ s, value = .string s ∧ value.SaysNoNumber ∧
        reason = (noNumber s).message := by
  rw [List.mem_filterMap]
  constructor
  · rintro ⟨move, hmove, hfailure⟩
    rcases mem_moves.mp hmove with ⟨_, rfl⟩ | ⟨target, htarget, _, side, conversion, hdeclared, rfl⟩
    · cases hfailure
    · rw [declared?_standard] at hdeclared
      rw [Move.failure?, Move.outcome] at hfailure
      by_cases hnumber : target = .number ∧ value.SaysNoNumber
      · obtain ⟨rfl, hnone⟩ := hnumber
        obtain ⟨s, rfl⟩ := hnone.string
        rw [standardConversion?_refuses hnone hdeclared] at hfailure
        cases hfailure
        exact ⟨htarget, s, rfl, hnone, rfl⟩
      · obtain ⟨converted, hconverts⟩ := standardConversion?_converts hdeclared hnumber
        rw [hconverts] at hfailure
        cases hfailure
  · rintro ⟨hnumber, s, rfl, hnone, rfl⟩
    have hdeclared : standard.declared? .target .string .number = some stringToNumber :=
      declared?_standard .target .string .number
    have hother : TypeName.number ≠ .string := by decide
    refine ⟨.convert .target .number stringToNumber, mem_moves.mpr (.inr ⟨.number, hnumber, hother,
      .target, stringToNumber, hdeclared, rfl⟩), ?_⟩
    have hconversion : standardConversion? .target .string .number = some stringToNumber := rfl
    rw [Move.failure?, Move.outcome, standardConversion?_refuses hnone hconversion]

/-- A cast with the standard types gives a value of an acceptable type. No conversion runs on a value that
it is not made for. The cast fails just where the value has none of the acceptable types and there is no
way to any of them, save to number for a text that says no number; and that is the only reason it gives. -/
theorem standard_cast_sound (value : Value) (acceptable : List TypeName) (h : acceptable ≠ []) :
    (∀ converted, (standard.cast value acceptable).2 = .ok converted →
      converted.type ∈ acceptable) ∧
    (∀ attempt ∈ (standard.cast value acceptable).1,
      attempt.value = value ∧ attempt.source = value.type ∧ ∃ conversion,
        standard.declared? attempt.side attempt.source attempt.target = some conversion ∧
        ∀ expected other, conversion.convert attempt.value ≠ unexpected expected other) ∧
    ((∃ error, (standard.cast value acceptable).2 = .error error) ↔
      value.type ∉ acceptable ∧ ∀ target ∈ acceptable,
        (∀ side, standard.declared? side value.type target = none) ∨
          target = .number ∧ value.SaysNoNumber) ∧
    ∀ error, (standard.cast value acceptable).2 = .error error →
      (error.reason.isSome ↔ value.SaysNoNumber ∧ .number ∈ acceptable) ∧
      ∀ reason, error.reason = some reason →
        ∃ s, value = .string s ∧ reason = (noNumber s).message := by
  refine ⟨?_, ?_, ?_, ?_⟩
  · intro converted hcast
    exact (wellTyped_standard.cast_suits hcast).resolve_left h
  · intro attempt hattempt
    obtain ⟨hvalue, hsource, _, conversion, hdeclared⟩ := mem_cast_attempts hattempt
    refine ⟨hvalue, hsource, conversion, hdeclared, ?_⟩
    rw [hvalue]
    rw [hsource] at hdeclared
    exact standard_not_unexpected hdeclared
  · simp only [cast_fails_iff h, standard_missed_iff, exists_and_left, exists_eq, and_true]
  · intro error hfails
    obtain ⟨_, rfl⟩ := (cast_fails_iff h).mp hfails
    constructor
    · rw [List.getLast?_isSome]
      constructor
      · intro hsome
        obtain ⟨reason, hreason⟩ := List.exists_mem_of_ne_nil _ hsome
        obtain ⟨hnumber, _, _, hnone, _⟩ := mem_standard_failures.mp hreason
        exact ⟨hnone, hnumber⟩
      · rintro ⟨hnone, hnumber⟩
        obtain ⟨s, hs⟩ := hnone.string
        exact List.ne_nil_of_mem (mem_standard_failures.mpr ⟨hnumber, s, hs, hnone, rfl⟩)
    · intro reason hreason
      obtain ⟨_, s, hs, _, hmessage⟩ := mem_standard_failures.mp (List.mem_of_getLast? hreason)
      exact ⟨s, hs, hmessage⟩

/-- A word becomes neither a number nor a table, and only the number is a reason. -/
theorem standard_cast_sound_word :
    ([.number, .datatable] : List TypeName) ≠ [] ∧
    ∃ error, (standard.cast (.string "abc") [.number, .datatable]).2 = .error error ∧
      error.reason.isSome := by
  have hsound := standard_cast_sound (.string "abc") [.number, .datatable] (by decide)
  have hword : (Value.string "abc").SaysNoNumber := ⟨"abc", rfl, by decide, rfl⟩
  have hnowhere : ∀ target ∈ [TypeName.number, .datatable],
      (∀ side, standard.declared? side .string target = none) ∨
        target = .number ∧ (Value.string "abc").SaysNoNumber := by
    intro target htarget
    rcases List.mem_pair.mp htarget with rfl | rfl
    · exact .inr ⟨rfl, hword⟩
    · exact .inl fun side => by cases side <;> rfl
  obtain ⟨error, hfails⟩ := hsound.2.2.1.mpr ⟨by decide, hnowhere⟩
  exact ⟨by decide, error, hfails, (hsound.2.2.2 error hfails).1.mpr ⟨hword, by decide⟩⟩

end TypeRegistry

end ChainExpr
