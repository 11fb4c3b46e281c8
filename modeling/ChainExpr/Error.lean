import ChainExpr.Json.Printer
import ChainExpr.Types.Name

namespace ChainExpr

/-- A value that reaches none of the acceptable types. -/
structure CastError where
  source : TypeName
  targets : List TypeName
  /-- The message of the last conversion that was tried and failed. -/
  reason : Option String
deriving DecidableEq, Repr

inductive RuntimeError
  /-- A fragment of a document that is no node. -/
  | unknownNode (fragment : Json)
  /-- No host takes a chain that starts with this function. -/
  | functionNotRegistered (name : String)
  | unknownArgument (function argument : String)
  /-- The context of a function has none of its context types. -/
  | cast (error : CastError)
  | argumentCast (function argument : String) (error : CastError)
  | returnType (function : String) (expected actual : TypeName)
  /-- A failure that an implementation, a conversion or a host reports. -/
  | function (name message : String)
  /-- A reference was called. -/
  | notCallable (name : String)
  | configuration (problem : String)
deriving Inhabited

def CastError.message (error : CastError) : String :=
  "Can not cast '" ++ error.source.text ++ "' to any of '" ++
    ", ".intercalate (error.targets.map TypeName.text) ++ "'" ++
    match error.reason with
    | some reason => " (" ++ reason ++ ")"
    | none => ""

def RuntimeError.message : RuntimeError → String
  | .unknownNode fragment => "Unknown AST object: " ++ fragment.text
  | .functionNotRegistered name => "Function not registered: " ++ name
  | .unknownArgument f argument =>
    "Unknown argument to function: " ++ f ++ "(" ++ argument ++ ")"
  | .cast error => error.message
  | .argumentCast f argument error =>
    "Invalid value for argument " ++ f ++ "(" ++ argument ++ "): " ++ error.message
  | .returnType f expected actual =>
    "Function " ++ f ++ " should return '" ++ expected.text ++ "', actually returned '" ++
      actual.text ++ "'"
  | .function name message => "Function " ++ name ++ " failed: " ++ message
  | .notCallable name => "Value is not callable: " ++ name
  | .configuration problem => "Configuration error: " ++ problem

end ChainExpr
