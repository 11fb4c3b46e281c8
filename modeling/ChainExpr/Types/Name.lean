namespace ChainExpr

inductive TypeName
  | null
  | boolean
  | number
  | string
  | object
  | function
  | datatable
  | pointseries
  | render
deriving DecidableEq, Repr, Inhabited

namespace TypeName

/-- The types in their order. -/
def all : List TypeName :=
  [null, boolean, number, string, object, function, datatable, pointseries, render]

/-- The place of a type in the order of types. -/
def place : TypeName → Nat
  | null => 0
  | boolean => 1
  | number => 2
  | string => 3
  | object => 4
  | function => 5
  | datatable => 6
  | pointseries => 7
  | render => 8

instance : LT TypeName := ⟨fun s t => s.place < t.place⟩

instance (s t : TypeName) : Decidable (s < t) := inferInstanceAs (Decidable (s.place < t.place))

/-- The name of a type in declarations, messages and JSON. -/
def text : TypeName → String
  | null => "null"
  | boolean => "boolean"
  | number => "number"
  | string => "string"
  | object => "object"
  | function => "function"
  | datatable => "datatable"
  | pointseries => "pointseries"
  | render => "render"

/-- The name of a type in descriptions of registries and definitions. -/
def title : TypeName → String
  | null => "Null"
  | boolean => "Boolean"
  | number => "Number"
  | string => "String"
  | object => "Object"
  | function => "Function"
  | datatable => "Datatable"
  | pointseries => "Pointseries"
  | render => "Render"

def ofText? (s : String) : Option TypeName := all.find? (·.text == s)

end TypeName

end ChainExpr
