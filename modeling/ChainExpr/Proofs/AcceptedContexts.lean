import ChainExpr.Proofs.LinkStages

namespace ChainExpr

namespace TypeRegistry

variable {types : TypeRegistry} {source : TypeName} {acceptable : List TypeName} {value : Value}

/-- The type is among the acceptable ones, but behind another one that it is converted to. -/
def Overtaken (types : TypeRegistry) (source : TypeName) (acceptable : List TypeName) : Prop :=
  source ∈ acceptable ∧ ∃ earlier ∈ acceptable.takeWhile (· ≠ source),
    ∃ side conversion, types.declared? side source earlier = some conversion

theorem movesTo_eq_nil_iff {target : TypeName} (h : target ≠ source) :
    types.movesTo source target = [] ↔ ∀ side, types.declared? side source target = none := by
  rw [movesTo, if_neg h, List.filterMap_eq_nil_iff]
  simp only [Option.map_eq_none_iff]
  constructor
  · intro hnone side
    cases side
    · exact hnone .source (by simp)
    · exact hnone .target (by simp)
  · exact fun hnone side _ => hnone side

/-- A move for another type is a conversion. -/
theorem ne_keep_of_mem_movesTo {target : TypeName} (h : target ≠ source) {move : Move}
    (hmove : move ∈ types.movesTo source target) : move ≠ .keep := by
  rw [movesTo, if_neg h] at hmove
  obtain ⟨side, _, hside⟩ := List.mem_filterMap.mp hmove
  obtain ⟨conversion, _, rfl⟩ := Option.map_eq_some_iff.mp hside
  exact Move.noConfusion

theorem overtaken_cons {first : TypeName} {rest : List TypeName} (h : first ≠ source) :
    types.Overtaken source (first :: rest) ↔
      (source ∈ rest ∧ ∃ side conversion, types.declared? side source first = some conversion) ∨
        types.Overtaken source rest := by
  simp [Overtaken, h, h.symm, or_and_right, exists_or, and_or_left]

/-- The first move is to keep the value just where no type before its own can be reached. -/
theorem moves_start_keep_iff :
    (∃ later, types.moves source acceptable = .keep :: later) ↔
      source ∈ acceptable ∧ ¬ types.Overtaken source acceptable := by
  induction acceptable with
  | nil => simp [moves]
  | cons first rest ih =>
    have hmoves : types.moves source (first :: rest) =
        types.movesTo source first ++ types.moves source rest := List.flatMap_cons
    by_cases hown : first = source
    · subst hown
      simp [hmoves, movesTo, Overtaken]
    · by_cases hnone : ∀ side, types.declared? side source first = none
      · rw [hmoves, (movesTo_eq_nil_iff hown).mpr hnone, List.nil_append, ih, overtaken_cons hown]
        simp [hnone, Ne.symm hown]
      · obtain ⟨move, later, hfirst⟩ :=
          List.exists_cons_of_ne_nil (mt (movesTo_eq_nil_iff hown).mp hnone)
        have hmade : move ∈ types.movesTo source first := hfirst ▸ List.mem_cons_self
        have hconverts : move ≠ .keep := ne_keep_of_mem_movesTo hown hmade
        have hdeclared : ∃ side conversion, types.declared? side source first = some conversion := by
          simpa only [not_forall, ← ne_eq, Option.ne_none_iff_exists'] using hnone
        have hstuck : ¬ ∃ later, types.moves source (first :: rest) = .keep :: later := by
          simp [hmoves, hfirst, hconverts]
        have hover (hmem : source ∈ first :: rest) : types.Overtaken source (first :: rest) :=
          (overtaken_cons hown).mpr
            (.inl ⟨(List.mem_cons.mp hmem).resolve_left (Ne.symm hown), hdeclared⟩)
        exact iff_of_false hstuck fun h => h.2 (hover h.1)

/-- A cast gives the value back without a conversion if anything will do, or if the value's own type is
listed and comes before all that it is converted to. -/
theorem cast_keeps_iff :
    types.cast value acceptable = ([], .ok value) ↔
      acceptable = [] ∨ value.type ∈ acceptable ∧ ¬ types.Overtaken value.type acceptable := by
  by_cases hempty : acceptable = []
  · simp [cast, hempty]
  · rw [cast_ok_iff hempty, ← moves_start_keep_iff]
    simp only [hempty, false_or]
    constructor
    · intro h
      generalize hran : ([] : List Attempt) = attempts at h
      cases h with
      | @reached before after move _ split missed succeeds =>
        have hkept : ∀ made ∈ before ++ [move], made = .keep := by
          intro made hmade
          have hnothing := List.flatMap_eq_nil_iff.mp hran.symm made hmade
          cases made with
          | keep => rfl
          | convert side target conversion => cases hnothing
        cases before with
        | nil => exact ⟨after, by rw [split, hkept move (by simp), List.nil_append]⟩
        | cons first rest =>
          obtain ⟨error, hfails⟩ := missed first List.mem_cons_self
          rw [hkept first (by simp)] at hfails
          cases hfails
    · rintro ⟨later, hmoves⟩
      have hkeep : Move.keep.outcome value = .ok value := rfl
      rw [hmoves]
      exact .found hkeep later

end TypeRegistry

namespace FunctionDefinition

variable {definition : FunctionDefinition} {types : TypeRegistry} {context : Value}
  {arguments : Arguments}

/-- An invocation starts with a call of the implementation on the context as it is. -/
def TakesAsItIs (definition : FunctionDefinition) (types : TypeRegistry) (context : Value)
    (arguments : Arguments) : Prop :=
  ∃ rest, definition.invoke types context arguments =
    .emit (.call definition.name context arguments) rest

/-- The implementation is called on the cast context, behind the conversions of the cast. -/
theorem invoke_eq :
    definition.invoke types context arguments =
      Task.emitAll ((types.cast context definition.acceptable).1.map .conversion)
        (match (types.cast context definition.acceptable).2 with
          | .error error =>
            .emit (.log (.contextRejected definition.name error)) (.fail (.cast error))
          | .ok received =>
            .emit (.call definition.name received arguments)
              (definition.perform received arguments)) := rfl

theorem takesAsItIs_iff_cast :
    definition.TakesAsItIs types context arguments ↔
      types.cast context definition.acceptable = ([], .ok context) := by
  rw [TakesAsItIs, invoke_eq]
  obtain ⟨attempts, outcome⟩ := types.cast context definition.acceptable
  cases attempts with
  | nil => cases outcome <;> simp [Task.emitAll]
  | cons first later => simp [Task.emitAll]

theorem accepts_iff :
    definition.accepts context.type = true ↔
      definition.contextTypes = none ∨ context.type ∈ definition.acceptable := by
  rw [accepts, acceptable]
  cases definition.contextTypes <;> simp

/-- A function takes a context as it is where its declaration lists no type, or lists the context's own
type before all that the context is converted to. Its declaration accepts the type of the context where
it does not say anything or lists that type. So the two agree unless the declaration is an empty list,
or a type that the context is converted to stands before its own. -/
theorem takes_as_it_is_unless_overtaken (definition : FunctionDefinition) (types : TypeRegistry)
    (context : Value) (arguments : Arguments) :
    (definition.TakesAsItIs types context arguments ↔
      definition.acceptable = [] ∨
        context.type ∈ definition.acceptable ∧
          ¬ types.Overtaken context.type definition.acceptable) ∧
    (definition.accepts context.type = true ↔
      definition.contextTypes = none ∨ context.type ∈ definition.acceptable) ∧
    ((definition.accepts context.type = true ↔
        definition.TakesAsItIs types context arguments) ↔
      definition.contextTypes ≠ some [] ∧
        ¬ types.Overtaken context.type definition.acceptable) := by
  have htakes : definition.TakesAsItIs types context arguments ↔ _ :=
    takesAsItIs_iff_cast.trans TypeRegistry.cast_keeps_iff
  refine ⟨htakes, accepts_iff, ?_⟩
  rw [htakes, accepts_iff]
  have hlisted (h : types.Overtaken context.type definition.acceptable) :
      context.type ∈ definition.acceptable := h.1
  cases hdeclared : definition.contextTypes with
  | none => simp [acceptable, hdeclared, TypeRegistry.Overtaken]
  | some listed =>
    have hacceptable : definition.acceptable = listed := by rw [acceptable, hdeclared, Option.getD_some]
    rw [hacceptable] at hlisted ⊢
    cases listed with
    | nil => simp
    | cons first rest =>
      by_cases hover : types.Overtaken context.type (first :: rest)
      · simp [hover, hlisted hover]
      · simp [hover]

end FunctionDefinition

namespace Stock

/-- A function that gives its context back, with the given context types. -/
def echoing (contextTypes : List TypeName) : FunctionDefinition where
  name := "echo"
  returns := none
  contextTypes := some contextTypes
  signature := .empty
  aliases := []
  help := ""
  implementation := fun context arguments => Body.context.run "echo" context arguments

end Stock

/-- A declaration of no type accepts none, though the function takes everything as it is. One of strings
and numbers accepts numbers, but the function receives the text of the number. -/
theorem FunctionDefinition.accepts_beside_the_cast :
    ((Stock.echoing []).accepts .number = false ∧
      (Stock.echoing []).TakesAsItIs .standard (.number 3) ∅) ∧
    ((Stock.echoing [.string, .number]).accepts .number = true ∧
      ¬ (Stock.echoing [.string, .number]).TakesAsItIs .standard (.number 3) ∅ ∧
      (TypeRegistry.standard.cast (.number 3) (Stock.echoing [.string, .number]).acceptable).2.toOption =
        some (.string "3")) := by
  refine ⟨⟨rfl, ?_⟩, rfl, ?_, rfl⟩
  · exact takesAsItIs_iff_cast.mpr rfl
  · intro h
    cases takesAsItIs_iff_cast.mp h

end ChainExpr
