import ChainExpr.OrderedMap
import ChainExpr.Value.Basic

namespace ChainExpr

inductive ArgumentValue
  | single (value : Value)
  | multi (values : List Value)
deriving Inhabited

abbrev Arguments := OrderedMap ArgumentValue

namespace Arguments

/-- The value of a single-valued argument. -/
def single? (arguments : Arguments) (name : String) : Option Value :=
  match arguments.get? name with
  | some (.single value) => some value
  | _ => none

/-- The values of a multi-valued argument. -/
def multi? (arguments : Arguments) (name : String) : Option (List Value) :=
  match arguments.get? name with
  | some (.multi values) => some values
  | _ => none

def number? (arguments : Arguments) (name : String) : Option Float :=
  (single? arguments name).bind Value.number?

def string? (arguments : Arguments) (name : String) : Option String :=
  (single? arguments name).bind Value.string?

def callable? (arguments : Arguments) (name : String) : Option Callable :=
  (single? arguments name).bind Value.callable?

end Arguments

end ChainExpr
