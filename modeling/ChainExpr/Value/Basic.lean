import ChainExpr.Syntax.Node
import ChainExpr.Table
import ChainExpr.Types.Name

namespace ChainExpr

/-- The address of an interpreter: its tower and its level there. -/
structure Home where
  tower : Nat
  level : Nat
deriving DecidableEq, Inhabited, Repr

/-- A function value. -/
inductive Callable
  /-- A chain set aside by the interpreter at `home`, as the creation number `serial` of its run. -/
  | deferred (home : Home) (serial : Nat) (chain : Chain)
  /-- The bare name of a function, which cannot be called. -/
  | reference (name : String)
deriving Inhabited

namespace Callable

/-- Deferred chains are equal only as copies of one creation. -/
protected def beq : Callable → Callable → Bool
  | .deferred _ serial _, .deferred _ serial' _ => serial == serial'
  | .reference a, .reference b => a == b
  | _, _ => false

instance : BEq Callable := ⟨Callable.beq⟩

def shown : Callable → String
  | .deferred .. => "Partial"
  | .reference name => "FunctionRef(" ++ name ++ ")"

end Callable

inductive Value
  | null
  | boolean (b : Bool)
  | number (x : Float)
  | string (s : String)
  | object (fields : List (String × Value))
  | function (callable : Callable)
  | datatable (table : Datatable)
  | pointseries (series : Pointseries)
  /-- A value wrapped for the renderer of the given name. -/
  | render (renderer : String) (value : Value)
deriving Inhabited

namespace Value

def ofLiteral : Literal → Value
  | .null => .null
  | .boolean b => .boolean b
  | .number x => .number x
  | .string s => .string s

def type : Value → TypeName
  | .null => .null
  | .boolean _ => .boolean
  | .number _ => .number
  | .string _ => .string
  | .object _ => .object
  | .function _ => .function
  | .datatable _ => .datatable
  | .pointseries _ => .pointseries
  | .render .. => .render

def isNull : Value → Bool
  | .null => true
  | _ => false

def number? : Value → Option Float
  | .number x => some x
  | _ => none

def boolean? : Value → Option Bool
  | .boolean b => some b
  | _ => none

def string? : Value → Option String
  | .string s => some s
  | _ => none

def callable? : Value → Option Callable
  | .function callable => some callable
  | _ => none

mutual

/-- Equality of values. The order of the fields of an object does not count. -/
protected def beq : Value → Value → Bool
  | .null, .null => true
  | .boolean a, .boolean b => a == b
  | .number a, .number b => a == b
  | .string a, .string b => a == b
  | .object a, .object b => a.length == b.length && beqFields a b
  | .function a, .function b => a == b
  | .datatable a, .datatable b => a == b
  | .pointseries a, .pointseries b => a == b
  | .render r a, .render s b => r == s && Value.beq a b
  | _, _ => false

/-- Whether every field on the left has an equal value on the right. -/
def beqFields : List (String × Value) → List (String × Value) → Bool
  | [], _ => true
  | (name, value) :: rest, others =>
    (match others.lookup name with
      | some value' => Value.beq value value'
      | none => false) && beqFields rest others

end

instance : BEq Value := ⟨Value.beq⟩

end Value

end ChainExpr
