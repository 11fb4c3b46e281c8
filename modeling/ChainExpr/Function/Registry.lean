import ChainExpr.Function.Definition

namespace ChainExpr

structure FunctionRegistry where
  functions : OrderedMap FunctionDefinition
  aliases : OrderedMap String

namespace FunctionRegistry

def empty : FunctionRegistry := ⟨∅, ∅⟩

instance : Inhabited FunctionRegistry := ⟨empty⟩

/-- Registers a function. One of the same name is replaced; its aliases stay and lead to the new
one. -/
def register (registry : FunctionRegistry) (definition : FunctionDefinition) : FunctionRegistry where
  functions := registry.functions.insert definition.name definition
  aliases := registry.aliases.insertAll definition.aliases definition.name

def ofList (definitions : List FunctionDefinition) : FunctionRegistry :=
  definitions.foldl register empty

/-- The function of a name, or else of an alias. -/
def lookup (registry : FunctionRegistry) (name : String) : Option FunctionDefinition :=
  match registry.functions.get? name with
  | some definition => some definition
  | none => (registry.aliases.get? name).bind registry.functions.get?

def contains (registry : FunctionRegistry) (name : String) : Bool := (registry.lookup name).isSome

/-- The names of the functions without their aliases, sorted. -/
def names (registry : FunctionRegistry) : List String :=
  registry.functions.names.mergeSort fun a b => decide (a ≤ b)

def size (registry : FunctionRegistry) : Nat := registry.functions.size

def isEmpty (registry : FunctionRegistry) : Bool := registry.functions.isEmpty

end FunctionRegistry

end ChainExpr
