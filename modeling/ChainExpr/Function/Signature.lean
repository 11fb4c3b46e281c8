import ChainExpr.OrderedMap
import ChainExpr.Value.Basic

namespace ChainExpr

structure ArgumentDefinition where
  name : String
  /-- The acceptable types, preferred ones first. An empty list accepts anything. -/
  types : List TypeName
  /-- Stands for an argument that a call does not mention. -/
  default? : Option Value
  /-- Whether all values count and not only the last one. -/
  multi : Bool
  aliases : List String
  help : String

/-- Declared arguments, each under its name, and the names that aliases stand for. -/
structure Signature where
  arguments : OrderedMap ArgumentDefinition
  aliases : OrderedMap String
  aliases_declared : ∀ given name, aliases.get? given = some name → name ∈ arguments.names

namespace Signature

def empty : Signature := ⟨∅, ∅, by simp [OrderedMap.get?, EmptyCollection.emptyCollection,
  OrderedMap.empty]⟩

instance : Inhabited Signature := ⟨empty⟩

/-- Declares one more argument. Of two declarations of one name the later one counts, in the place of
the earlier. An alias that stands for another name is taken over. -/
def declare (signature : Signature) (argument : ArgumentDefinition) : Signature where
  arguments := signature.arguments.insert argument.name argument
  aliases := signature.aliases.insertAll argument.aliases argument.name
  aliases_declared := by
    intro given name h
    rw [OrderedMap.get?_insertAll] at h
    rw [OrderedMap.names_insert]
    split at h
    · obtain rfl := Option.some.inj h
      split
      · assumption
      · simp
    · have hdeclared := signature.aliases_declared given name h
      split
      · exact hdeclared
      · exact List.mem_append_left _ hdeclared

def ofList (arguments : List ArgumentDefinition) : Signature := arguments.foldl declare empty

/-- The declared name that a name at a call stands for. A declared name always stands for itself. -/
def resolve? (signature : Signature) (name : String) : Option String :=
  if signature.arguments.contains name then some name else signature.aliases.get? name

/-- The argument that a name or alias stands for. -/
def argument? (signature : Signature) (name : String) : Option ArgumentDefinition :=
  (signature.resolve? name).bind signature.arguments.get?

end Signature

end ChainExpr
