import ChainExpr.Config.Basic
import ChainExpr.Evaluation.Task
import ChainExpr.Function.Registry
import ChainExpr.Types.Standard

namespace ChainExpr

/-- What an interpreter knows by itself. -/
structure Equipment where
  functions : FunctionRegistry
  types : TypeRegistry
  config : EvaluationConfig
  /-- The number of the tower in which the interpreter is found. -/
  tower : Nat := 0
deriving Inhabited

mutual

inductive Interpreter
  | mk (equipment : Equipment) (host : Host)

/-- Decides what becomes of a chain whose first function the interpreter does not know. -/
inductive Host
  /-- Refuses every chain. -/
  | rejecting
  /-- Hands every chain to another interpreter. -/
  | delegating (fallback : Interpreter)
  /-- Answers by itself. -/
  | custom (name : String) (answer : Chain → Value → Routine)

end

namespace Interpreter

def equipment : Interpreter → Equipment
  | .mk equipment _ => equipment

def host : Interpreter → Host
  | .mk _ host => host

def functions (interpreter : Interpreter) : FunctionRegistry := interpreter.equipment.functions

def types (interpreter : Interpreter) : TypeRegistry := interpreter.equipment.types

def config (interpreter : Interpreter) : EvaluationConfig := interpreter.equipment.config

end Interpreter

mutual

/-- The level of an interpreter in its tower, the lowest one being at level zero. -/
def Interpreter.level : Interpreter → Nat
  | .mk _ host => host.height

/-- How many interpreters stand below. -/
def Host.height : Host → Nat
  | .rejecting => 0
  | .delegating fallback => fallback.level + 1
  | .custom .. => 0

end

/-- Where an interpreter is found. -/
def Interpreter.home (interpreter : Interpreter) : Home :=
  ⟨interpreter.equipment.tower, interpreter.level⟩

mutual

/-- The interpreter at a level of the tower. Levels above the tower lead to its top. -/
def Interpreter.atLevel (level : Nat) : Interpreter → Interpreter
  | .mk equipment host =>
    match host.atLevel? level with
    | some interpreter => interpreter
    | none => .mk equipment host

/-- The interpreter at a level below, if the level is there. -/
def Host.atLevel? (level : Nat) : Host → Option Interpreter
  | .rejecting => none
  | .delegating fallback => if level ≤ fallback.level then some (fallback.atLevel level) else none
  | .custom .. => none

end

mutual

def Interpreter.description : Interpreter → String
  | .mk equipment host =>
    Text.record "Interpreter"
      [("functions", Text.quotedList equipment.functions.names),
        ("types", Text.bracketed (equipment.types.names.map TypeName.title)),
        ("host", host.description)]

def Host.description : Host → String
  | .rejecting => "RejectingHost"
  | .delegating fallback => Text.record "DelegatingHost" [("fallback", fallback.description)]
  | .custom name _ => name

end

namespace Host

def kind : Host → HostKind
  | .rejecting => .rejecting
  | .delegating fallback => .delegating fallback.home
  | .custom .. => .custom

end Host

end ChainExpr
