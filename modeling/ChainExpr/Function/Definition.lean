import ChainExpr.Evaluation.Routine
import ChainExpr.Function.Arguments
import ChainExpr.Function.Signature
import ChainExpr.Text.Quoted

namespace ChainExpr

structure FunctionDefinition where
  name : String
  /-- The type of every result. Without one any result is good. -/
  returns : Option TypeName
  /-- The declared context types. Without a declaration any context is good. -/
  contextTypes : Option (List TypeName)
  signature : Signature
  /-- Other names the function answers to. -/
  aliases : List String
  help : String
  implementation : Value → Arguments → Routine

namespace FunctionDefinition

instance : Inhabited FunctionDefinition :=
  ⟨⟨"", none, none, .empty, [], "", fun context _ => .ok context⟩⟩

/-- The types that a context is cast to. -/
def acceptable (definition : FunctionDefinition) : List TypeName :=
  definition.contextTypes.getD []

/-- Whether the declaration lists a context type, or lists none at all. -/
def accepts (definition : FunctionDefinition) (type : TypeName) : Bool :=
  match definition.contextTypes with
  | none => true
  | some types => types.contains type

def description (definition : FunctionDefinition) : String :=
  Text.record "FunctionDefinition"
    [("name", Text.quoted definition.name),
      ("return_type", Text.optional (definition.returns.map TypeName.title)),
      ("context", Text.record "ContextSpec"
        [("types", Text.optional
          (definition.contextTypes.map fun types => Text.bracketed (types.map TypeName.title)))]),
      ("args", Text.quotedList definition.signature.arguments.names),
      ("aliases", Text.quotedList definition.aliases)]

end FunctionDefinition

end ChainExpr
