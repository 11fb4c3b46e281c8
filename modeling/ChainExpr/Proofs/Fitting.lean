import ChainExpr.Proofs.Conversions
import ChainExpr.Proofs.Policy
import Mathlib.Data.List.Forall2

namespace ChainExpr

/-- Every value that the conversion gives is of the type. -/
def Conversion.Makes (conversion : Conversion) (type : TypeName) : Prop :=
  ∀ value converted, conversion.convert value = .ok converted → converted.type = type

/-- Every conversion makes what it is registered to make. -/
def TypeRegistry.WellTyped (types : TypeRegistry) : Prop := types.Each Conversion.Makes

/-- The value is of one of the types, or the list is empty and accepts anything. -/
def Value.Suits (value : Value) (acceptable : List TypeName) : Prop :=
  acceptable = [] ∨ value.type ∈ acceptable

/-- A multi argument has many values and another one a single value, all of declared types. -/
def ArgumentValue.Fits (argument : ArgumentDefinition) : ArgumentValue → Prop
  | .single value => argument.multi = false ∧ value.Suits argument.types
  | .multi values => argument.multi = true ∧ ∀ value ∈ values, value.Suits argument.types

/-- A context of a declared type, and for each declared argument in its turn one that fits it. -/
structure FunctionDefinition.Fits (definition : FunctionDefinition) (context : Value)
    (arguments : Arguments) : Prop where
  context : context.Suits definition.acceptable
  arguments : List.Forall₂ (fun declared given => given.1 = declared.1 ∧ given.2.Fits declared.2)
    definition.signature.arguments.entries arguments.entries

namespace Conversion

theorem blank_makes (value : Value) : (blank value).Makes value.type := by
  intro _ converted h
  cases h
  rfl

theorem numberToBoolean_makes : numberToBoolean.Makes .boolean := by
  intro value converted h
  cases value <;> cases h
  rfl

theorem stringToBoolean_makes : stringToBoolean.Makes .boolean := by
  intro value converted h
  cases value <;> cases h
  rfl

theorem booleanToNumber_makes : booleanToNumber.Makes .number := by
  intro value converted h
  cases value <;> cases h
  rfl

theorem stringToNumber_makes : stringToNumber.Makes .number := by
  intro value converted h
  obtain ⟨s, x, _, rfl⟩ := stringToNumber_ok h
  rfl

theorem booleanToString_makes : booleanToString.Makes .string := by
  intro value converted h
  cases value <;> cases h
  rfl

theorem numberToString_makes : numberToString.Makes .string := by
  intro value converted h
  cases value <;> cases h
  rfl

theorem seriesToDatatable_makes : seriesToDatatable.Makes .datatable := by
  intro value converted h
  cases value <;> cases h
  rfl

theorem datatableToRender_makes : datatableToRender.Makes .render := by
  intro value converted h
  cases value <;> cases h
  rfl

theorem seriesToRender_makes : seriesToRender.Makes .render := by
  intro value converted h
  cases value <;> cases h
  rfl

end Conversion

open Conversion in
/-- The standard conversions make what they are there for. -/
theorem TypeRegistry.wellTyped_standard : standard.WellTyped :=
  each_standard (fun value _ => blank_makes value) numberToBoolean_makes stringToBoolean_makes
    booleanToNumber_makes
    stringToNumber_makes booleanToString_makes numberToString_makes seriesToDatatable_makes
    datatableToRender_makes seriesToRender_makes

namespace TypeRegistry

variable {types : TypeRegistry}

theorem tryConversions_type {value converted : Value} {target : TypeName}
    {conversions : List (Side × Conversion)} (hmakes : ∀ entry ∈ conversions, entry.2.Makes target)
    (h : (tryConversions value target conversions).2 = .ok converted) : converted.type = target := by
  induction conversions with
  | nil => cases h
  | cons entry rest ih =>
    obtain ⟨side, conversion⟩ := entry
    rw [tryConversions] at h
    cases hconvert : conversion.convert value with
    | ok first =>
      simp only [hconvert, Except.ok.injEq] at h
      subst h
      exact hmakes (side, conversion) (by simp) value first hconvert
    | error error =>
      have hrest : ∀ entry ∈ rest, entry.2.Makes target :=
        fun entry hentry => hmakes entry (by simp [hentry])
      apply ih hrest
      cases hlater : tryConversions value target rest with
      | mk attempts outcome =>
        simp only [hconvert, hlater] at h
        cases outcome with
        | ok later => exact h
        | error reason => cases h

theorem WellTyped.search_type (h : types.WellTyped) {value converted : Value}
    {acceptable : List TypeName} (hsearch : (types.search value acceptable).2 = .ok converted) :
    converted.type ∈ acceptable := by
  induction acceptable with
  | nil => cases hsearch
  | cons target rest ih =>
    rw [search] at hsearch
    split at hsearch
    · rename_i hown
      cases hsearch
      exact hown ▸ List.mem_cons_self
    · cases htry : tryConversions value target (types.conversions value.type target) with
      | mk attempts outcome =>
        simp only [htry] at hsearch
        cases outcome with
        | ok first =>
          cases hsearch
          have htype := tryConversions_type (h.conversions value.type target)
            (congrArg Prod.snd htry)
          exact htype ▸ List.mem_cons_self
        | error reason =>
          apply List.mem_cons_of_mem
          apply ih
          cases hlater : types.search value rest with
          | mk attempts outcome =>
            simp only [hlater] at hsearch
            cases outcome with
            | ok later => exact hsearch
            | error reason => cases hsearch

/-- A cast gives nothing but values of acceptable types. -/
theorem WellTyped.cast_suits (h : types.WellTyped) {value converted : Value}
    {acceptable : List TypeName} (hcast : (types.cast value acceptable).2 = .ok converted) :
    converted.Suits acceptable := by
  rw [cast] at hcast
  split at hcast
  · rename_i hempty
    exact .inl hempty
  · right
    apply h.search_type
    cases hsearch : types.search value acceptable with
    | mk attempts outcome =>
      simp only [hsearch] at hcast
      cases outcome with
      | ok found => cases hcast; rfl
      | error reason => cases hcast

end TypeRegistry

theorem Entries.insert_of_not_mem {α : Type} {name : String} {entries : List (String × α)}
    (h : name ∉ names entries) (value : α) :
    insert name value entries = entries ++ [(name, value)] := by
  induction entries with
  | nil => rfl
  | cons entry rest ih =>
    obtain ⟨other, old⟩ := entry
    rw [names, List.map_cons, List.mem_cons, not_or] at h
    rw [insert, if_neg h.1, ih h.2, List.cons_append]

namespace FunctionDefinition

open ChainExpr.Task

variable {definition : FunctionDefinition} {types : TypeRegistry}

theorem castFor_returns (h : types.WellTyped) (name : String) (acceptable : List TypeName)
    (value : Value) :
    (definition.castFor types name acceptable value).Returns fun outcome =>
      ∀ converted, outcome = .ok converted → converted.Suits acceptable := by
  apply returns_cast
  cases hcast : (types.cast value acceptable).2 with
  | ok converted =>
    intro other hother
    cases hother
    exact h.cast_suits hcast
  | error error =>
    intro other hother
    cases hother

theorem castAll_returns (h : types.WellTyped) (name : String) (acceptable : List TypeName)
    (values : List Value) :
    (definition.castAll types name acceptable values).Returns fun outcome =>
      ∀ converted, outcome = .ok converted → ∀ value ∈ converted, value.Suits acceptable := by
  induction values with
  | nil =>
    intro converted hconverted
    cases hconverted
    simp
  | cons value rest ih =>
    apply (castFor_returns h name acceptable value).bind
    intro first hfirst
    apply ih.bind
    intro later hlater converted hconverted
    cases hconverted
    intro value hvalue
    rcases List.mem_cons.mp hvalue with rfl | hrest
    · exact hfirst
    · exact hlater value hrest

theorem bindOne_returns (h : types.WellTyped) (name : String) (argument : ArgumentDefinition)
    (values : List Value) :
    (definition.bindOne types name argument values).Returns fun outcome =>
      ∀ given, outcome = .ok given → given.Fits argument := by
  rw [bindOne]
  split
  · rename_i hmulti
    apply (castAll_returns h name argument.types values).bind
    intro converted hconverted given hgiven
    cases hgiven
    exact ⟨hmulti, hconverted⟩
  · rename_i hsingle
    apply (castFor_returns h name argument.types _).bind
    intro converted hconverted given hgiven
    cases hgiven
    exact ⟨by simpa using hsingle, hconverted⟩

/-- Binding adds one entry after the other, so declared order is kept as long as names are new. What
holds of each argument by itself holds of all. -/
theorem bindEach_returns {meets : String → ArgumentDefinition → ArgumentValue → Prop}
    {bound : List (String × List Value)}
    (hone : ∀ name argument, (definition.bindOne types name argument
      (valuesFor name argument bound)).Returns fun outcome =>
        ∀ given, outcome = .ok given → meets name argument given)
    (done : Arguments) (declared : List (String × ArgumentDefinition))
    (hnames : (done.names ++ Entries.names declared).Nodup) :
    (definition.bindEach types bound done declared).Returns fun outcome =>
      ∀ arguments, outcome = .ok arguments → ∃ added, arguments.entries = done.entries ++ added ∧
        List.Forall₂ (fun declared given => given.1 = declared.1 ∧ meets declared.1 declared.2 given.2)
          declared added := by
  induction declared generalizing done with
  | nil =>
    intro arguments harguments
    cases harguments
    exact ⟨[], (List.append_nil _).symm, .nil⟩
  | cons entry rest ih =>
    obtain ⟨name, argument⟩ := entry
    have hnew : name ∉ done.names := by
      intro hold
      exact (List.nodup_append.mp hnames).2.2 name hold name List.mem_cons_self rfl
    apply (hone name argument).bind
    intro given hgiven
    have hinsert : (done.insert name given).entries = done.entries ++ [(name, given)] :=
      Entries.insert_of_not_mem hnew given
    apply (ih (done.insert name given) _).weaken
    · intro outcome houtcome arguments harguments
      obtain ⟨added, hentries, hadded⟩ := houtcome arguments harguments
      refine ⟨(name, given) :: added, ?_, .cons ⟨rfl, hgiven⟩ hadded⟩
      rw [hentries, hinsert, List.append_assoc, List.singleton_append]
    · rw [OrderedMap.names_insert, if_neg hnew, List.append_assoc]
      exact hnames

/-- Bound arguments are those that the function declares. -/
theorem bindArguments_returns {meets : String → ArgumentDefinition → ArgumentValue → Prop}
    {bound : List (String × List Value)}
    (hone : ∀ name argument, (definition.bindOne types name argument
      (valuesFor name argument bound)).Returns fun outcome =>
        ∀ given, outcome = .ok given → meets name argument given) :
    (definition.bindArguments types bound).Returns fun outcome =>
      ∀ arguments, outcome = .ok arguments →
        List.Forall₂ (fun declared given => given.1 = declared.1 ∧ meets declared.1 declared.2 given.2)
          definition.signature.arguments.entries arguments.entries := by
  apply (bindEach_returns hone ∅ definition.signature.arguments.entries _).weaken
  · intro outcome houtcome arguments harguments
    obtain ⟨added, hentries, hadded⟩ := houtcome arguments harguments
    have hall : arguments.entries = added := hentries
    exact hall ▸ hadded
  · exact definition.signature.arguments.nodup_names

/-- Over well typed registries bound arguments fit their declarations. -/
theorem bindArguments_fits (h : types.WellTyped) (bound : List (String × List Value)) :
    (definition.bindArguments types bound).Returns fun outcome =>
      ∀ arguments, outcome = .ok arguments →
        List.Forall₂ (fun declared given => given.1 = declared.1 ∧ given.2.Fits declared.2)
          definition.signature.arguments.entries arguments.entries :=
  bindArguments_returns fun name argument => bindOne_returns h name argument _

/-- What an invocation succeeds with is of the declared type. -/
theorem invoke_returns (context : Value) (arguments : Arguments) :
    (definition.invoke types context arguments).Returns fun outcome =>
      ∀ value, outcome = .ok value → ∀ expected, definition.returns = some expected →
        value.type = expected := by
  apply returns_cast
  cases (types.cast context definition.acceptable).2 with
  | error error =>
    intro value hvalue
    cases hvalue
  | ok context =>
    apply (returns_trivial _).andThen
    intro outcome _
    cases outcome with
    | error error =>
      intro value hvalue
      cases hvalue
    | ok result =>
      change (definition.checkReturn result).Returns _
      rw [checkReturn]
      split
      · rename_i hnone
        intro value _ expected hexpected
        rw [hnone] at hexpected
        cases hexpected
      · rename_i declared hdeclared
        split
        · rename_i htype
          intro value hvalue expected hexpected
          cases hvalue
          rw [hdeclared] at hexpected
          cases hexpected
          exact htype
        · intro value hvalue
          cases hvalue

end FunctionDefinition

end ChainExpr
