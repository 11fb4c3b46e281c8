import ChainExpr.Proofs.Plan
import ChainExpr.Proofs.Resolution

namespace ChainExpr

namespace Signature

/-- A name stands for no argument if none is declared under it, as its name or as one of its aliases. -/
theorem resolve?_ofList_eq_none_iff {declared : List ArgumentDefinition} {given : String} :
    (ofList declared).resolve? given = none ↔
      ∀ argument ∈ declared, given ≠ argument.name ∧ given ∉ argument.aliases := by
  have hone (signature : Signature) (argument : ArgumentDefinition) :
      (signature.declare argument).resolve? given = none ↔
        signature.resolve? given = none ∧ given ≠ argument.name ∧ given ∉ argument.aliases := by
    have hkept : (if given = argument.name then some argument else signature.arguments.get? given).isSome =
        (decide (given = argument.name) || signature.arguments.contains given) := by
      by_cases hname : given = argument.name <;> simp [hname, OrderedMap.contains]
    rw [resolve?, resolve?, declare, OrderedMap.contains, OrderedMap.get?_insert,
      OrderedMap.get?_insertAll, hkept]
    by_cases hname : given = argument.name
    · simp [hname]
    · by_cases halias : given ∈ argument.aliases
      · by_cases hdeclared : signature.arguments.contains given <;> simp [hname, halias, hdeclared]
      · simp [hname, halias]
  have hall (signature : Signature) :
      (declared.foldl declare signature).resolve? given = none ↔
        signature.resolve? given = none ∧
          ∀ argument ∈ declared, given ≠ argument.name ∧ given ∉ argument.aliases := by
    induction declared generalizing signature with
    | nil => simp
    | cons first rest ih => rw [List.foldl_cons, ih, hone, List.forall_mem_cons, and_assoc]
  rw [ofList, hall]
  exact and_iff_right rfl

end Signature

namespace Site

variable {site : Site} {definition : FunctionDefinition} {arguments : Arguments} {context : Value}

/-- The events between the arguments of a link and what the cast of its context leads to. -/
def approachEvents (site : Site) (definition : FunctionDefinition) (arguments : Arguments)
    (context : Value) : List Event :=
  (if site.equipment.config.traceLinks then
    [.log (.invokingLink definition.name arguments.names context.type)] else []) ++
  (site.equipment.types.cast context definition.acceptable).1.map .conversion

theorem approach_eq :
    site.approach definition arguments context =
      Task.emitAll (site.approachEvents definition arguments context)
        (definition.receive (site.equipment.types.cast context definition.acceptable).2) := by
  rw [approach, announce, approachEvents, Task.emitAll_append]
  split
  · rfl
  · rfl

end Site

namespace Towers

variable {towers : Towers} {interpreter : Interpreter} {definition : FunctionDefinition} {link : Link}
  {context : Value} {arguments : Arguments} {world world' : World} {events : List Event}
  {outcome : Except RuntimeError Value}

/-- How a called implementation ends: with its own error, with a result of another than the declared type,
or with its result. -/
inductive CallEnds (towers : Towers) (definition : FunctionDefinition) (received : Value)
    (arguments : Arguments) (world : World) :
    List Event → Except RuntimeError Value → World → Prop
  | failed {events : List Event} {error : RuntimeError} {world' : World}
      (runs : towers.Shows (Task.routine definition.name (definition.implementation received arguments)
        .finish, world) events (.finish (.error error), world')) :
      CallEnds towers definition received arguments world
        (events ++ [.log (definition.failureEntry error)]) (.error error)
        (world'.record (.log (definition.failureEntry error)))
  | mistyped {events : List Event} {value : Value} {expected : TypeName} {error : RuntimeError}
      {world' : World}
      (runs : towers.Shows (Task.routine definition.name (definition.implementation received arguments)
        .finish, world) events (.finish (.ok value), world'))
      (declared : definition.returns = some expected) (other : value.type ≠ expected)
      (raised : error = .returnType definition.name expected value.type) :
      CallEnds towers definition received arguments world
        (events ++ [.log (.returnTypeRejected definition.name error)]) (.error error)
        (world'.record (.log (.returnTypeRejected definition.name error)))
  | returned {events : List Event} {value : Value} {world' : World}
      (runs : towers.Shows (Task.routine definition.name (definition.implementation received arguments)
        .finish, world) events (.finish (.ok value), world'))
      (typed : ∀ expected, definition.returns = some expected → value.type = expected) :
      CallEnds towers definition received arguments world events (.ok value) world'

/-- What a function returns is rejected or let through as it is. -/
theorem shows_checkReturn {value : Value} :
    towers.Shows (definition.checkReturn value, world) events (.finish outcome, world') ↔
      (∃ expected error, definition.returns = some expected ∧ value.type ≠ expected ∧
        error = .returnType definition.name expected value.type ∧ outcome = .error error ∧
        events = [.log (.returnTypeRejected definition.name error)] ∧
        world' = world.record (.log (.returnTypeRejected definition.name error))) ∨
      ((∀ expected, definition.returns = some expected → value.type = expected) ∧
        outcome = .ok value ∧ events = [] ∧ world' = world) := by
  rw [FunctionDefinition.checkReturn]
  cases hreturns : definition.returns with
  | none =>
    simp only [Task.ok, shows_finish]
    constructor
    · rintro ⟨hstate, rfl⟩
      cases hstate
      exact .inr ⟨by simp, rfl, rfl, rfl⟩
    · rintro (⟨_, _, hsome, _⟩ | ⟨_, rfl, rfl, rfl⟩)
      · cases hsome
      · exact ⟨rfl, rfl⟩
  | some expected =>
    by_cases htype : value.type = expected
    · simp only [htype, ↓reduceIte, Task.ok, shows_finish]
      constructor
      · rintro ⟨hstate, rfl⟩
        cases hstate
        exact .inr ⟨by simp, rfl, rfl, rfl⟩
      · rintro (⟨_, _, hsame, hother, _⟩ | ⟨_, rfl, rfl, rfl⟩)
        · exact absurd (Option.some.inj hsame) hother
        · exact ⟨rfl, rfl⟩
    · simp only [htype, ↓reduceIte, Task.fail, shows_emit_finish, shows_finish]
      constructor
      · rintro ⟨_, rfl, hstate, rfl⟩
        cases hstate
        exact .inl ⟨expected, _, rfl, htype, rfl, rfl, rfl, rfl⟩
      · rintro (⟨_, _, hsame, _, rfl, rfl, rfl, rfl⟩ | ⟨htyped, _⟩)
        · cases hsame
          exact ⟨[], rfl, rfl, rfl⟩
        · exact absurd (htyped expected rfl) htype

theorem shows_perform {received : Value} :
    towers.Shows (definition.perform received arguments, world) events (.finish outcome, world') ↔
      towers.CallEnds definition received arguments world events outcome world' := by
  rw [FunctionDefinition.perform, shows_bind_finish]
  simp only [shows_onError_finish, shows_checkReturn]
  constructor
  · rintro (⟨error, rfl, hrun⟩ | ⟨value, middle, first, later, rfl, hrun, hreturn⟩)
    · rcases hrun with ⟨_, hsame, _⟩ | ⟨_, _, _, hsame, rfl, rfl, hrun⟩
      · cases hsame
      · cases hsame
        exact .failed hrun
    · rcases hrun with ⟨_, hsame, hrun⟩ | ⟨_, _, _, hsame, _⟩
      · cases hsame
        rcases hreturn with ⟨_, _, hdeclared, hother, hraised, rfl, rfl, rfl⟩ | ⟨htyped, rfl, rfl, rfl⟩
        · exact .mistyped hrun hdeclared hother hraised
        · rw [List.append_nil]
          exact .returned hrun htyped
      · cases hsame
  · intro h
    cases h with
    | failed runs => exact .inl ⟨_, rfl, .inr ⟨_, _, _, rfl, rfl, rfl, runs⟩⟩
    | mistyped runs declared other raised =>
      exact .inr ⟨_, _, _, _, rfl, .inl ⟨_, rfl, runs⟩, .inl ⟨_, _, declared, other, raised, rfl, rfl, rfl⟩⟩
    | returned runs typed =>
      exact .inr ⟨_, _, _, [], (List.append_nil _).symm, .inl ⟨_, rfl, runs⟩, .inr ⟨typed, rfl, rfl, rfl⟩⟩

/-- How a link whose function is known ends: with the first of its stages that fails, or with what its
function comes to. -/
inductive LinkEnds (towers : Towers) (interpreter : Interpreter) (definition : FunctionDefinition)
    (link : Link) (context : Value) (world : World) :
    List Event → Except RuntimeError Value → World → Prop
  /-- Its arguments cannot be resolved. -/
  | arguments {events : List Event} {error : RuntimeError} {world' : World}
      (fails : towers.ArgumentsEnd interpreter definition context link.arguments world events
        (.error error) world') :
      LinkEnds towers interpreter definition link context world events (.error error) world'
  /-- Its arguments are there, but its context cannot be cast. -/
  | context {first entries : List Event} {bound : Arguments} {middle : World} {reason : CastError}
      (resolves : towers.ArgumentsEnd interpreter definition context link.arguments world first
        (.ok bound) middle)
      (fails : (interpreter.types.cast context definition.acceptable).2 = .error reason)
      (told : entries = interpreter.site.approachEvents definition bound context ++
        [.log (.contextRejected definition.name reason)]) :
      LinkEnds towers interpreter definition link context world (first ++ entries)
        (.error (.cast reason)) (entries.foldl World.record middle)
  /-- Its function is called. -/
  | called {first entries later : List Event} {bound : Arguments} {received : Value}
      {middle world' : World} {outcome : Except RuntimeError Value}
      (resolves : towers.ArgumentsEnd interpreter definition context link.arguments world first
        (.ok bound) middle)
      (casts : (interpreter.types.cast context definition.acceptable).2 = .ok received)
      (told : entries = interpreter.site.approachEvents definition bound context ++
        [.call definition.name received bound])
      (ends : towers.CallEnds definition received bound (entries.foldl World.record middle) later
        outcome world') :
      LinkEnds towers interpreter definition link context world (first ++ entries ++ later) outcome
        world'

/-- A link is its arguments, the approach to its function and the call, one behind the other. -/
theorem runLink_eq :
    interpreter.runLink definition link context =
      (interpreter.resolveArguments definition context link.arguments).bind fun bound =>
        (interpreter.site.approach definition bound context).bind fun received =>
          .emit (.call definition.name received bound) (definition.perform received bound) := by
  rw [Interpreter.runLink, Site.runLink, Interpreter.resolveArguments]
  exact congrArg (Task.bind _) (funext fun bound => Site.announce_invoke bound context)

/-- Behind the arguments of a link, its context decides whether its function is called. -/
theorem approach_bind_call :
    ((interpreter.site.approach definition arguments context).bind fun received =>
        .emit (.call definition.name received arguments) (definition.perform received arguments)) =
      match (interpreter.types.cast context definition.acceptable).2 with
      | .error reason =>
        Task.emitAll (interpreter.site.approachEvents definition arguments context ++
          [.log (.contextRejected definition.name reason)]) (.fail (.cast reason))
      | .ok received =>
        Task.emitAll (interpreter.site.approachEvents definition arguments context ++
          [.call definition.name received arguments]) (definition.perform received arguments) := by
  rw [Site.approach_eq, Task.emitAll_bind]
  change Task.emitAll _ (Task.bind (definition.receive (interpreter.types.cast _ _).2) _) = _
  cases (interpreter.types.cast context definition.acceptable).2 with
  | error reason =>
    exact (Task.emitAll_append _ [.log (.contextRejected definition.name reason)] _).symm
  | ok received => exact (Task.emitAll_append _ [.call definition.name received arguments] _).symm

/-- A link stage by stage. -/
theorem shows_runLink :
    towers.Shows (interpreter.runLink definition link context, world) events (.finish outcome, world') ↔
      towers.LinkEnds interpreter definition link context world events outcome world' := by
  rw [runLink_eq, shows_bind_finish]
  simp only [shows_resolveArguments, approach_bind_call]
  constructor
  · rintro (⟨error, rfl, hfails⟩ | ⟨bound, middle, first, later, rfl, hresolves, hlater⟩)
    · exact .arguments hfails
    · cases hcast : (interpreter.types.cast context definition.acceptable).2 with
      | error reason =>
        simp only [hcast, Task.fail] at hlater
        obtain ⟨rfl, rfl, rfl⟩ := shows_emitAll_outcome.mp hlater
        exact .context hresolves hcast rfl
      | ok received =>
        simp only [hcast, Interpreter.shows_emitAll_finish, shows_perform] at hlater
        obtain ⟨rest, rfl, hends⟩ := hlater
        rw [← List.append_assoc]
        exact .called hresolves hcast rfl hends
  · intro h
    cases h with
    | arguments fails => exact .inl ⟨_, rfl, fails⟩
    | context resolves fails told =>
      refine .inr ⟨_, _, _, _, rfl, resolves, ?_⟩
      rw [fails, told]
      exact shows_emitAll_outcome.mpr ⟨rfl, rfl, rfl⟩
    | called resolves casts told ends =>
      refine .inr ⟨_, _, _, _, List.append_assoc _ _ _, resolves, ?_⟩
      rw [casts]
      exact Interpreter.shows_emitAll_finish.mpr ⟨_, told ▸ rfl, shows_perform.mpr (told ▸ ends)⟩

/-- What comes of a link whose function is known, and what has happened by then. A link is one call: the
implementation is called on what the arguments are bound to and on the cast context, once both are there.
A link ends with the first of its stages that fails: its names, of which the first counts that is neither
declared nor an alias; its values, with the error of one of its nodes; their casts in declared order; the
cast of its context; the implementation; and the type of the result. -/
theorem link_stages (towers : Towers) (interpreter : Interpreter) (definition : FunctionDefinition)
    (link : Link)
    (known : interpreter.functions.lookup link.function = some definition) (context : Value)
    (world : World) :
    (∀ rest, interpreter.invokeChain (link :: rest) context =
      (interpreter.runLink definition link context).bind (interpreter.invokeChain rest)) ∧
    (interpreter.runLink definition link context =
      (interpreter.resolveArguments definition context link.arguments).bind fun bound =>
        (interpreter.site.approach definition bound context).bind fun received =>
          .emit (.call definition.name received bound) (definition.perform received bound)) ∧
    (∀ events outcome world',
      towers.Shows (interpreter.runLink definition link context, world) events (.finish outcome, world') ↔
        towers.LinkEnds interpreter definition link context world events outcome world') ∧
    (∀ declared given, definition.signature = .ofList declared →
      (definition.signature.resolve? given = none ↔
        ∀ argument ∈ declared, given ≠ argument.name ∧ given ∉ argument.aliases)) ∧
    ∀ events error world',
      towers.Shows (interpreter.site.interpretArguments link.arguments context, world) events
          (.finish (.error error), world') →
        ∃ entry ∈ link.arguments, ∃ node ∈ entry.2,
          towers.RunsAmid (interpreter.interpret node context, world)
            (.finish (.error error), world') := by
  refine ⟨fun rest => Interpreter.invokeChain_known known rest context, runLink_eq, fun _ _ _ => shows_runLink,
    ?_, fun _ _ _ h => Site.elements_error h.1⟩
  rintro declared given hdeclared
  rw [hdeclared]
  exact Signature.resolve?_ofList_eq_none_iff

end Towers

namespace Stock

/-- Doubles a number, and has a number as its argument. -/
def doubling : FunctionDefinition where
  name := "double"
  returns := some .number
  contextTypes := some [.number]
  signature := .ofList [⟨"n", [.number], none, false, [], ""⟩]
  aliases := []
  help := ""
  implementation := fun context arguments => Body.double.run "double" context arguments

def doubler : Interpreter := .mk ⟨.ofList [doubling], .standard, .standard, 0⟩ .rejecting

end Stock

/-- Of a name that is not declared, a value that cannot be cast and a context that cannot be cast the name
counts, and nothing has happened by then. -/
theorem Towers.link_stages_doubling :
    Stock.doubler.functions.lookup "double" = some Stock.doubling ∧
      (Stock.doubler.types.cast (.string "two") [.number]).2.toOption = none ∧
      Stock.doubler.alone.Shows (Stock.doubler.runLink Stock.doubling
          ⟨"double", [("n", [.literal (.string "two")]), ("m", [])]⟩ (.string "two"), .start)
        [.log (.argumentsRejected "double" (.unknownArgument "double" "m"))]
        (.finish (.error (.unknownArgument "double" "m")),
          World.start.record (.log (.argumentsRejected "double" (.unknownArgument "double" "m")))) := by
  have hknown : Stock.doubler.functions.lookup "double" = some Stock.doubling := rfl
  refine ⟨hknown, by rfl, ?_⟩
  have hstages := link_stages Stock.doubler.alone Stock.doubler Stock.doubling
    ⟨"double", [("n", [.literal (.string "two")]), ("m", [])]⟩ hknown (.string "two") .start
  have hnames : Entries.names [("n", [Node.literal (.string "two")]), ("m", [])] = ["n"] ++ "m" :: [] :=
    rfl
  exact (hstages.2.2.1 _ _ _).mpr (.arguments (.unknown hnames (by decide) (by decide) rfl))

end ChainExpr
