import ChainExpr.Interpreter.Binding

namespace ChainExpr

namespace FunctionDefinition

/-- A call of the implementation alone. -/
def call (definition : FunctionDefinition) (context : Value) (arguments : Arguments) : Task Value :=
  .emit (.call definition.name context arguments)
    (.routine definition.name (definition.implementation context arguments) .finish)

/-- How the failure of an implementation is logged. Its own failure is a warning; any other error was
logged where it arose. -/
def failureEntry (definition : FunctionDefinition) (error : RuntimeError) : LogEntry :=
  match error with
  | .function name _ =>
    if name = definition.name then .functionFailed definition.name error
    else .errorPassedThrough definition.name error
  | _ => .errorPassedThrough definition.name error

/-- A result of another than the declared type is an error. -/
def checkReturn (definition : FunctionDefinition) (value : Value) : Task Value :=
  match definition.returns with
  | none => .ok value
  | some expected =>
    if value.type = expected then .ok value
    else
      let error : RuntimeError := .returnType definition.name expected value.type
      .emit (.log (.returnTypeRejected definition.name error)) (.fail error)

/-- Runs a function on a context and bound arguments. -/
def invoke (definition : FunctionDefinition) (types : TypeRegistry) (context : Value)
    (arguments : Arguments) : Task Value :=
  Task.cast types context definition.acceptable fun
    | .error error =>
      .emit (.log (.contextRejected definition.name error)) (.fail (.cast error))
    | .ok context =>
      ((definition.call context arguments).onError definition.failureEntry).bind
        definition.checkReturn

end FunctionDefinition

end ChainExpr
