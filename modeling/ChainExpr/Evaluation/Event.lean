import ChainExpr.Function.Arguments
import ChainExpr.Types.Cast

namespace ChainExpr

inductive LogLevel
  | debug
  | warn
deriving DecidableEq, Repr

/-- Occasions for a log entry. -/
inductive LogEntry
  | handingOver (function : String) (remaining : Nat)
  | invokingLink (function : String) (arguments : List String) (context : TypeName)
  | argumentsRejected (function : String) (error : RuntimeError)
  | argumentEvaluationFailed (function : String) (error : RuntimeError)
  | contextRejected (function : String) (error : CastError)
  | functionFailed (function : String) (error : RuntimeError)
  | errorPassedThrough (function : String) (error : RuntimeError)
  | returnTypeRejected (function : String) (error : RuntimeError)
  | functionNotRegistered (function : String)
  | delegating (function : String) (links : Nat)

namespace LogEntry

/-- An error is a warning where it arises. -/
def level : LogEntry → LogLevel
  | .handingOver .. | .invokingLink .. | .argumentEvaluationFailed .. | .errorPassedThrough ..
  | .delegating .. => .debug
  | .argumentsRejected .. | .contextRejected .. | .functionFailed .. | .returnTypeRejected ..
  | .functionNotRegistered .. => .warn

def message : LogEntry → String
  | .handingOver .. => "function not registered, handing chain to host"
  | .invokingLink .. => "invoking link"
  | .argumentsRejected .. => "arguments rejected"
  | .argumentEvaluationFailed .. => "argument evaluation failed"
  | .contextRejected .. => "context rejected"
  | .functionFailed .. => "function failed"
  | .errorPassedThrough .. => "error passed through function"
  | .returnTypeRejected .. => "return type rejected"
  | .functionNotRegistered .. => "function not registered"
  | .delegating .. => "delegating chain to fallback interpreter"

/-- The fields of an entry besides its message. -/
def fields : LogEntry → List (String × Json)
  | .handingOver name remaining =>
    [("function", .string name), ("remaining", .number (.integer remaining))]
  | .invokingLink name arguments context =>
    [("function", .string name), ("args", .string (Text.quotedList arguments)),
      ("context", .string context.text)]
  | .argumentsRejected name error | .argumentEvaluationFailed name error
  | .functionFailed name error | .errorPassedThrough name error | .returnTypeRejected name error =>
    [("function", .string name), ("error", .string error.message)]
  | .contextRejected name error =>
    [("function", .string name), ("error", .string error.message)]
  | .functionNotRegistered name => [("function", .string name)]
  | .delegating name links =>
    [("function", .string name), ("links", .number (.integer links))]

end LogEntry

/-- How a host answers. -/
inductive HostKind
  | rejecting
  /-- Through the interpreter at this home. -/
  | delegating (fallback : Home)
  /-- With an answer of its own. -/
  | custom
deriving DecidableEq, Repr

inductive Event
  /-- An implementation is called. -/
  | call (function : String) (context : Value) (arguments : Arguments)
  /-- A routine of this function goes on after waiting. -/
  | resume (function : String)
  | conversion (attempt : Attempt)
  /-- A host is asked for the rest of a chain. -/
  | request (host : HostKind) (chain : Chain) (context : Value)
  | log (entry : LogEntry)

namespace Event

/-- Whether an observer is told of an event. Log entries are for those who follow the log. -/
def isReported (withLog : Bool) : Event → Bool
  | .call .. | .resume _ => true
  | .conversion attempt => attempt.reported
  | .request host .. => host = .custom
  | .log _ => withLog

end Event

end ChainExpr
