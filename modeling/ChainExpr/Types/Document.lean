import ChainExpr.Json.Basic
import ChainExpr.Types.Name

namespace ChainExpr.TypeName

/-- The type that a document names: as a string, or as the only field of an object whose value is
null. -/
def ofJson? : Json → Option TypeName
  | .string name => ofText? name
  | .object [(name, .null)] => ofText? name
  | _ => none

def toJson (type : TypeName) : Json := .string type.text

end ChainExpr.TypeName
