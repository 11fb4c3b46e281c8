import ChainExpr.Interpreter.Basic
import ChainExpr.Interpreter.Invoke
import ChainExpr.Syntax.Document

namespace ChainExpr

/-- Where a chain runs: what the interpreter knows, its level, and what happens to the rest of a chain
that it cannot run. -/
structure Site where
  equipment : Equipment
  level : Nat
  handOver : Chain → Value → Task Value

namespace Site

def home (site : Site) : Home := ⟨site.equipment.tower, site.level⟩

/-- The arguments of one link, from the evaluations of their values. -/
def resolve (site : Site) (definition : FunctionDefinition) (names : List String)
    (values : Task (List (List Value))) : Task Arguments :=
  match definition.resolveNames names with
  | .error name =>
    let error : RuntimeError := .unknownArgument definition.name name
    .emit (.log (.argumentsRejected definition.name error)) (.fail error)
  | .ok names =>
    (values.onError (.argumentEvaluationFailed definition.name)).bind fun values =>
      (definition.bindArguments site.equipment.types
        (FunctionDefinition.foldValues names values)).onError (.argumentsRejected definition.name)

/-- The log entry before a link, where links are to be logged. -/
def announce (site : Site) (definition : FunctionDefinition) (arguments : Arguments)
    (context : Value) (next : Task Value) : Task Value :=
  if site.equipment.config.traceLinks then
    .emit (.log (.invokingLink definition.name arguments.names context.type)) next
  else next

mutual

/-- The value of a node. Setting a chain aside runs nothing and does not look at the context. -/
def interpret (site : Site) : Node → Value → Task Value
  | .expression chain, context => site.runChain chain context
  | .deferred chain, _ =>
    .create fun serial => .ok (.function (.deferred site.home serial chain))
  | .reference name, _ => .ok (.function (.reference name))
  | .literal literal, _ => .ok (.ofLiteral literal)

/-- Runs the links of a chain one after the other. -/
def runChain (site : Site) : List (LinkOf Node) → Value → Task Value
  | [], context => .ok context
  | ⟨name, arguments⟩ :: rest, context =>
    match site.equipment.functions.lookup name with
    | none =>
      .emit (.log (.handingOver name (rest.length + 1)))
        (site.handOver (⟨name, arguments⟩ :: rest) context)
    | some definition =>
      (site.resolve definition (Entries.names arguments)
        (.join (site.interpretLists arguments context))).bind fun bound =>
        site.announce definition bound context <|
          (definition.invoke site.equipment.types context bound).bind fun result =>
            site.runChain rest result

/-- The values of each argument of a link, side by side. -/
def interpretLists (site : Site) : List (String × List Node) → Value → List (Task (List Value))
  | [], _ => []
  | (_, values) :: rest, context =>
    .join (site.interpretEach values context) :: site.interpretLists rest context

def interpretEach (site : Site) : List Node → Value → List (Task Value)
  | [], _ => []
  | node :: rest, context => site.interpret node context :: site.interpretEach rest context

end

/-- The values of all arguments of a link, side by side. -/
def interpretArguments (site : Site) (arguments : List (String × List Node)) (context : Value) :
    Task (List (List Value)) :=
  .join (site.interpretLists arguments context)

end Site

mutual

/-- Runs a chain on an interpreter. -/
def Interpreter.invokeChain : Interpreter → Chain → Value → Task Value
  | .mk equipment host, chain, context =>
    Site.runChain ⟨equipment, host.height, host.answer⟩ chain context

/-- What a host makes of the rest of a chain. -/
def Host.answer : Host → Chain → Value → Task Value
  | .rejecting, chain, context =>
    let name := (Chain.head? chain).getD ""
    .emit (.request .rejecting chain context)
      (.emit (.log (.functionNotRegistered name)) (.fail (.functionNotRegistered name)))
  | .delegating fallback, chain, context =>
    .emit (.request (.delegating fallback.home) chain context)
      (.emit (.log (.delegating ((Chain.head? chain).getD "") chain.length))
        (fallback.invokeChain chain context))
  | .custom _ answer, chain, context =>
    .emit (.request .custom chain context) (.routine "" (answer chain context) .finish)

end

namespace Interpreter

def site (interpreter : Interpreter) : Site :=
  ⟨interpreter.equipment, interpreter.level, interpreter.host.answer⟩

/-- Evaluates a node on a context. -/
def interpret (interpreter : Interpreter) (node : Node) (context : Value) : Task Value :=
  interpreter.site.interpret node context

/-- Evaluates the node of a document. Nothing is evaluated unless the whole document is a node. -/
def interpretJson (interpreter : Interpreter) (document : Json) (context : Value) : Task Value :=
  match Node.ofJson document with
  | .error fragment => .fail (.unknownNode fragment)
  | .ok node => interpreter.interpret node context

/-- Evaluates a node on the configured context. -/
def run (interpreter : Interpreter) (node : Node) : Task Value :=
  interpreter.interpret node interpreter.config.initialContext

/-- The bound arguments of a call, evaluated on its context. -/
def resolveArguments (interpreter : Interpreter) (definition : FunctionDefinition) (context : Value)
    (arguments : List (String × List Node)) : Task Arguments :=
  interpreter.site.resolve definition (Entries.names arguments)
    (interpreter.site.interpretArguments arguments context)

theorem invokeChain_eq (interpreter : Interpreter) (chain : Chain) (context : Value) :
    interpreter.invokeChain chain context = interpreter.site.runChain chain context := by
  cases interpreter
  rfl

end Interpreter

end ChainExpr
