import ChainExpr.Interpreter.Basic
import ChainExpr.Value.Shown

namespace ChainExpr.Stock

/-- What a stock function does with its context. -/
inductive Body
  /-- Returns it. -/
  | context
  /-- Puts it into an object under `ctx`. -/
  | wrap
  /-- Names its type. -/
  | type
  /-- Says what it is shown as. -/
  | shown
  | double
  /-- Adds the argument `n`. -/
  | add
  /-- Puts the argument `s` before what it is shown as. -/
  | greet
  /-- Counts the ticks up to and with this one. -/
  | tick
  /-- Returns all arguments as an object. -/
  | arguments
  /-- Calls the argument `fn` on it. -/
  | call
  /-- Calls the values of `fn` one after the other, each on the result of the one before. -/
  | pipe
  | constant (value : Value)
  | argument (name : String)
  | render (renderer : String)
  | fail (message : String)
  /-- Fails in the name of another function. -/
  | failAs (function message : String)
  | yield (polls : Nat) (body : Body)
  | meet (point : String) (count : Nat) (body : Body)
deriving Inhabited

/-- The number a context stands for in arithmetic. -/
def operand (context : Value) : Float := context.number?.getD Number.notANumber

def argumentField : ArgumentValue → Value
  | .single value => value
  | .multi values =>
    .object (values.zipIdx.map fun (value, index) => (toString index, value))

/-- Calls values one after the other. One that cannot be called ends the routine when its turn
comes. -/
def pipe (name : String) : List Value → Value → Routine
  | [], result => .ok result
  | .function callable :: rest, result =>
    .call callable result fun
      | .ok result => pipe name rest result
      | .error error => .fail error
  | value :: _, _ => .fail (.function name ("not a function: " ++ value.shown))

namespace Body

/-- The routine of a stock function of the given name. -/
def run (name : String) (context : Value) (arguments : Arguments) : Body → Routine
  | .context => .ok context
  | .wrap => .ok (.object [("ctx", context)])
  | .type => .ok (.string context.type.text)
  | .shown => .ok (.string context.shown)
  | .double => .ok (.number (operand context * 2))
  | .add => .ok (.number (operand context + (arguments.number? "n").getD 0))
  | .greet => .ok (.string ((arguments.string? "s").getD "?" ++ context.shown))
  | .tick => .tick fun before => .ok (.number (Number.ofInt (before + 1)))
  | .arguments =>
    .ok (.object (arguments.entries.map fun (name, value) => (name, argumentField value)))
  | .call =>
    match arguments.callable? "fn" with
    | some callable => .call callable context .finish
    | none => .fail (.function name "fn is required")
  | .pipe => Stock.pipe name ((arguments.multi? "fn").getD []) context
  | .constant value => .ok value
  | .argument key => .ok ((arguments.single? key).getD .null)
  | .render renderer => .ok (.render renderer context)
  | .fail message => .fail (.function name message)
  | .failAs function message => .fail (.function function message)
  | .yield polls body => .wait polls (body.run name context arguments)
  | .meet point count body => .meet point count (body.run name context arguments)

end Body

/-- What a stock conversion or host gives. -/
inductive Answer
  /-- The value it is given. -/
  | same
  | constant (value : Value)
  | render (renderer : String)
  | fail (message : String)
deriving Inhabited

/-- The outcome for a value, failures being in the given name. -/
def Answer.outcome (name : String) (value : Value) : Answer → Except RuntimeError Value
  | .same => .ok value
  | .constant answer => .ok answer
  | .render renderer => .ok (.render renderer value)
  | .fail message => .error (.function name message)

/-- A conversion into a type that is reported when it runs. -/
def conversion (target : TypeName) (answer : Answer) : Conversion where
  convert := fun value => answer.outcome ("cast:" ++ target.text) value
  reported := true

/-- A host that answers by itself. -/
def host (answer : Answer) : Host :=
  .custom "ScriptedHost" fun _ context => .finish (answer.outcome "host" context)

/-- A function of strings with a stock body. -/
def act (body : Body) : FunctionDefinition where
  name := "act"
  returns := some .string
  contextTypes := some [.string]
  signature := .empty
  aliases := []
  help := ""
  implementation := fun context arguments => body.run "act" context arguments

/-- A function that calls what it is given, if that can be called. -/
def caller (name : String) : FunctionDefinition where
  name := name
  returns := none
  contextTypes := none
  signature := .ofList [⟨"fn", [], none, false, [], ""⟩]
  aliases := []
  help := ""
  implementation := fun context arguments => Body.call.run name context arguments

/-- Calls the function value that is its context. -/
def callingContext : Chain := [⟨"call", [("fn", [.expression []])]⟩]

/-- An interpreter that knows nothing but how to act. -/
def acting (body : Body) : Interpreter := .mk ⟨.ofList [act body], .standard, .standard, 0⟩ .rejecting

/-- An interpreter whose function takes its time before it returns its context. -/
def pausing (polls : Nat) : Interpreter := acting (.yield polls .context)

end ChainExpr.Stock
