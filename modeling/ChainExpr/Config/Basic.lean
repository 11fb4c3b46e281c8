import ChainExpr.Value.Basic

namespace ChainExpr

structure LoggingConfig where
  /-- Which log entries are kept, as comma-separated directives. -/
  filter : String
  /-- Whether the log is coloured. -/
  ansi : Bool

structure EvaluationConfig where
  /-- Whether every link is logged before its function is invoked. -/
  traceLinks : Bool
  /-- The context of a run that is given none. -/
  defaultContext : Option Literal

structure InterpreterConfig where
  logging : LoggingConfig
  evaluation : EvaluationConfig

namespace LoggingConfig

def standard : LoggingConfig := ⟨"chainlang=info", true⟩

instance : Inhabited LoggingConfig := ⟨standard⟩

protected def beq (a b : LoggingConfig) : Bool := a.filter == b.filter && a.ansi == b.ansi

instance : BEq LoggingConfig := ⟨LoggingConfig.beq⟩

end LoggingConfig

namespace EvaluationConfig

def standard : EvaluationConfig := ⟨false, none⟩

instance : Inhabited EvaluationConfig := ⟨standard⟩

/-- The configured context, or null. -/
def initialContext (config : EvaluationConfig) : Value :=
  match config.defaultContext with
  | some literal => .ofLiteral literal
  | none => .null

protected def beq (a b : EvaluationConfig) : Bool :=
  a.traceLinks == b.traceLinks && a.defaultContext == b.defaultContext

instance : BEq EvaluationConfig := ⟨EvaluationConfig.beq⟩

end EvaluationConfig

namespace InterpreterConfig

def standard : InterpreterConfig := ⟨.standard, .standard⟩

instance : Inhabited InterpreterConfig := ⟨standard⟩

protected def beq (a b : InterpreterConfig) : Bool :=
  a.logging == b.logging && a.evaluation == b.evaluation

instance : BEq InterpreterConfig := ⟨InterpreterConfig.beq⟩

end InterpreterConfig

end ChainExpr
