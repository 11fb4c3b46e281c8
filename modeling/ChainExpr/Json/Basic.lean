import ChainExpr.Number.Binary

namespace ChainExpr

/-- A JSON number: an integer between `-2 ^ 63` and `2 ^ 64`, or a finite number of another kind. The
two kinds are never equal. -/
inductive JsonNumber
  | integer (n : Int)
  | float (x : Float)

inductive Json
  | null
  | bool (b : Bool)
  | number (n : JsonNumber)
  | string (s : String)
  | array (items : List Json)
  | object (fields : List (String × Json))

namespace JsonNumber

def toFloat : JsonNumber → Float
  | .integer n => Number.ofInt n
  | .float x => x

protected def beq : JsonNumber → JsonNumber → Bool
  | .integer m, .integer n => m == n
  | .float x, .float y => x == y
  | _, _ => false

instance : BEq JsonNumber := ⟨JsonNumber.beq⟩

end JsonNumber

namespace Json

instance : Inhabited Json := ⟨null⟩

/-- Puts a field in its place by name. A field of the same name is replaced. -/
def insertField {α : Type} (name : String) (value : α) : List (String × α) → List (String × α)
  | [] => [(name, value)]
  | (k, v) :: rest =>
    if name < k then (name, value) :: (k, v) :: rest
    else if name = k then (name, value) :: rest
    else (k, v) :: insertField name value rest

/-- The fields in order of their names. Of two fields of one name the later one stays. -/
def sortFields {α : Type} (fields : List (String × α)) : List (String × α) :=
  fields.foldl (fun sorted (name, value) => insertField name value sorted) []

/-- The sorted object with the given fields. -/
def ofFields (fields : List (String × Json)) : Json := .object (sortFields fields)

def string? : Json → Option String
  | .string s => some s
  | _ => none

def array? : Json → Option (List Json)
  | .array items => some items
  | _ => none

def bool? : Json → Option Bool
  | .bool b => some b
  | _ => none

def number? : Json → Option JsonNumber
  | .number n => some n
  | _ => none

/-- A field of an object, none of any other document. -/
def field? (name : String) : Json → Option Json
  | .object fields => fields.lookup name
  | _ => none

mutual

/-- Equality of documents that were read, numbers as numbers. Their fields are sorted, so they are
compared in their order. -/
protected def beq : Json → Json → Bool
  | .null, .null => true
  | .bool a, .bool b => a == b
  | .number a, .number b => a == b
  | .string a, .string b => a == b
  | .array a, .array b => beqItems a b
  | .object a, .object b => beqFields a b
  | _, _ => false

def beqItems : List Json → List Json → Bool
  | [], [] => true
  | a :: as, b :: bs => Json.beq a b && beqItems as bs
  | _, _ => false

def beqFields : List (String × Json) → List (String × Json) → Bool
  | [], [] => true
  | (k, a) :: as, (l, b) :: bs => k == l && Json.beq a b && beqFields as bs
  | _, _ => false

end

instance : BEq Json := ⟨Json.beq⟩

end Json

end ChainExpr
