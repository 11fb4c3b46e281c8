import ChainExpr.Evaluation.Task

namespace ChainExpr

namespace FunctionDefinition

/-- The declared names that the names at a call stand for, or the first one that stands for none. -/
def resolveNames (definition : FunctionDefinition) : List String → Except String (List String)
  | [] => .ok []
  | name :: rest =>
    match definition.signature.resolve? name with
    | none => .error name
    | some primary => (definition.resolveNames rest).map (primary :: ·)

/-- Collects the values of each declared name, in the order of the call. -/
def foldValues (names : List String) (values : List (List Value)) : List (String × List Value) :=
  (names.zip values).foldl (fun bound (name, values) => Entries.extend name values bound) []

/-- The values that count for an argument: those at the call, or else the default, or else null. -/
def valuesFor (name : String) (argument : ArgumentDefinition) (bound : List (String × List Value)) :
    List Value :=
  match bound.lookup name with
  | some values => values
  | none => [argument.default?.getD .null]

/-- The cast of one value for the argument of a name. -/
def castFor (definition : FunctionDefinition) (types : TypeRegistry) (name : String)
    (acceptable : List TypeName) (value : Value) : Task Value :=
  Task.cast types value acceptable fun
    | .ok value => .ok value
    | .error error => .fail (.argumentCast definition.name name error)

/-- The casts of several values, one after the other. -/
def castAll (definition : FunctionDefinition) (types : TypeRegistry) (name : String)
    (acceptable : List TypeName) : List Value → Task (List Value)
  | [] => .ok []
  | value :: rest =>
    (definition.castFor types name acceptable value).bind fun value =>
      (definition.castAll types name acceptable rest).bind fun rest => .ok (value :: rest)

/-- A multi argument takes all its values. Another one takes the last, and null if there is none. -/
def bindOne (definition : FunctionDefinition) (types : TypeRegistry) (name : String)
    (argument : ArgumentDefinition) (values : List Value) : Task ArgumentValue :=
  if argument.multi then
    (definition.castAll types name argument.types values).bind fun values => .ok (.multi values)
  else
    (definition.castFor types name argument.types (values.getLast?.getD .null)).bind fun value =>
      .ok (.single value)

def bindEach (definition : FunctionDefinition) (types : TypeRegistry)
    (bound : List (String × List Value)) (done : Arguments) :
    List (String × ArgumentDefinition) → Task Arguments
  | [] => .ok done
  | (name, argument) :: rest =>
    (definition.bindOne types name argument (valuesFor name argument bound)).bind fun value =>
      definition.bindEach types bound (done.insert name value) rest

/-- The arguments of an implementation: one entry per declared argument, in declared order. -/
def bindArguments (definition : FunctionDefinition) (types : TypeRegistry)
    (bound : List (String × List Value)) : Task Arguments :=
  definition.bindEach types bound ∅ definition.signature.arguments.entries

end FunctionDefinition

end ChainExpr
