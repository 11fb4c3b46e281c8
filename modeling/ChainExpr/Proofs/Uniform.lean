import ChainExpr.Proofs.Conversions
import ChainExpr.Proofs.Likeness

namespace ChainExpr

open Likeness (Like)

/-- The conversion makes like values, or fails both times, of values that are like up to numbers from
`n` on. -/
def Conversion.Uniform (conversion : Conversion) (n : Nat) : Prop :=
  ∀ p : Pairing, p.Faithful → p.Keeps n → ∀ a b, Like p a b →
    Like p (conversion.convert a) (conversion.convert b)

/-- No conversion in the registry looks at creation numbers from `n` on. -/
def TypeRegistry.Uniform (types : TypeRegistry) (n : Nat) : Prop :=
  types.Each fun conversion _ => conversion.Uniform n

/-- As many attempts, and like outcomes. -/
inductive FoundLike {ε : Type} (p : Pairing) :
    List Attempt × Except ε Value → List Attempt × Except ε Value → Prop
  | ok {attempts attempts' : List Attempt} {value value' : Value}
      (lengths : attempts.length = attempts'.length) (values : Like p value value') :
      FoundLike p (attempts, .ok value) (attempts', .ok value')
  | error {attempts attempts' : List Attempt} (lengths : attempts.length = attempts'.length)
      (error error' : ε) : FoundLike p (attempts, .error error) (attempts', .error error')

namespace TypeRegistry

variable {types : TypeRegistry} {n : Nat} {p : Pairing} {value value' : Value}

theorem tryConversions_like (target : TypeName) {conversions : List (Side × Conversion)}
    (huniform : ∀ entry ∈ conversions, Like p (entry.2.convert value) (entry.2.convert value')) :
    FoundLike p (tryConversions value target conversions)
      (tryConversions value' target conversions) := by
  induction conversions with
  | nil => exact .error rfl none none
  | cons entry rest ih =>
    obtain ⟨side, conversion⟩ := entry
    have hfirst := huniform (side, conversion) (by simp)
    have hrest := ih fun entry hentry => huniform entry (by simp [hentry])
    simp only [tryConversions]
    generalize conversion.convert value = first at hfirst ⊢
    generalize conversion.convert value' = first' at hfirst ⊢
    cases hfirst with
    | ok hlike => exact .ok rfl hlike
    | error error error' =>
      generalize tryConversions value target rest = found at hrest ⊢
      generalize tryConversions value' target rest = found' at hrest ⊢
      cases hrest with
      | ok hlength hlike => exact .ok (congrArg (· + 1) hlength) hlike
      | error hlength reason reason' => exact .error (congrArg (· + 1) hlength) _ _

theorem search_like (huniform : types.Uniform n) (hp : p.Faithful) (hkeeps : p.Keeps n)
    (h : Like p value value') (acceptable : List TypeName) :
    FoundLike p (types.search value acceptable) (types.search value' acceptable) := by
  have htype : value.type = value'.type := Value.Like.type h
  induction acceptable with
  | nil => exact .error rfl none none
  | cons target rest ih =>
    simp only [search, ← htype]
    split
    · exact .ok rfl h
    · have hconversions : ∀ entry ∈ types.conversions value.type target,
          Like p (entry.2.convert value) (entry.2.convert value') :=
        fun entry hentry => huniform.conversions _ _ entry hentry p hp hkeeps value value' h
      have hfirst := tryConversions_like target hconversions
      generalize tryConversions value target (types.conversions value.type target) = first
        at hfirst ⊢
      generalize tryConversions value' target (types.conversions value.type target) = first'
        at hfirst ⊢
      cases hfirst with
      | ok hlength hlike => exact .ok hlength hlike
      | error hlength reason reason' =>
        generalize types.search value rest = later at ih ⊢
        generalize types.search value' rest = later' at ih ⊢
        cases ih with
        | ok hlength' hlike =>
          refine .ok ?_ hlike
          rw [List.length_append, List.length_append, hlength, hlength']
        | error hlength' last last' =>
          refine .error ?_ _ _
          rw [List.length_append, List.length_append, hlength, hlength']

/-- Like values are cast alike, in as many attempts. -/
theorem cast_like (huniform : types.Uniform n) (hp : p.Faithful) (hkeeps : p.Keeps n)
    (h : Like p value value') (acceptable : List TypeName) :
    FoundLike p (types.cast value acceptable) (types.cast value' acceptable) := by
  have hsearch := search_like huniform hp hkeeps h acceptable
  simp only [cast]
  split
  · exact .ok rfl h
  · generalize types.search value acceptable = found at hsearch ⊢
    generalize types.search value' acceptable = found' at hsearch ⊢
    cases hsearch with
    | ok hlength hlike => exact .ok hlength hlike
    | error hlength reason reason' => exact .error hlength _ _

end TypeRegistry

namespace Conversion

variable {n : Nat}

/-- A conversion is uniform if function values have no part in it. -/
theorem uniform_of_numbers {conversion : Conversion}
    (h : ∀ value converted, conversion.convert value = .ok converted →
      value.numbers = [] ∧ converted.numbers = []) : conversion.Uniform n := by
  intro p _ _ a b hlike
  cases hconvert : conversion.convert a with
  | ok converted =>
    obtain ⟨hnone, hnone'⟩ := h a converted hconvert
    rw [← hlike.eq_of_numbers hnone, hconvert]
    refine .ok ⟨rfl, ?_⟩
    rw [hnone']
    exact .nil
  | error error =>
    cases hconvert' : conversion.convert b with
    | error error' => exact .error error error'
    | ok converted' =>
      obtain ⟨hnone, _⟩ := h b converted' hconvert'
      have hnumbers := hlike.2
      rw [hnone] at hnumbers
      have hsame := hlike.eq_of_numbers (List.forall₂_nil_right_iff.mp hnumbers)
      rw [hsame, hconvert'] at hconvert
      cases hconvert

end Conversion

open Conversion in
/-- Standard conversions are of values without function values. -/
theorem TypeRegistry.uniform_standard (n : Nat) : standard.Uniform n := by
  apply each_standard
  case hblank =>
    intro value hvalue p _ hkeeps a b _
    have hnone : value.MadeBefore n := by
      simp only [List.mem_cons, List.not_mem_nil, or_false] at hvalue
      rcases hvalue with rfl | rfl | rfl | rfl | rfl <;> simp [Value.MadeBefore, Value.numbers]
    exact .ok (Value.Like.refl hkeeps hnone)
  case hstringToNumber =>
    apply uniform_of_numbers
    intro value converted h
    obtain ⟨s, x, rfl, rfl⟩ := stringToNumber_ok h
    exact ⟨rfl, rfl⟩
  all_goals
    apply uniform_of_numbers
    intro value converted h
    cases value <;> cases h
    exact ⟨rfl, rfl⟩

end ChainExpr
