import ChainExpr.Json.Token

namespace ChainExpr.Json

inductive Tree
  | null
  | bool (b : Bool)
  | number (n : Numeral)
  | string (pieces : List Piece)
  | array (items : List Tree)
  | object (fields : List (List Piece × Tree))

/-- An array or object that is not closed yet. What it holds so far is in reverse order. -/
inductive Frame
  | array (items : List Tree)
  | object (fields : List (List Piece × Tree)) (name : List Piece)

/-- What the text read so far demands next, with the frames around it from the inside out. -/
inductive Demand
  | start (around : List Frame)
  | firstItem (around : List Frame)
  | firstName (around : List Frame)
  | nextName (fields : List (List Piece × Tree)) (around : List Frame)
  | colonAfter (fields : List (List Piece × Tree)) (name : List Piece) (around : List Frame)
  /-- A value is complete. Its frame, if there is one, goes on or is closed. -/
  | ending (value : Tree) (around : List Frame)

/-- A token where a value has to start. -/
def startValue (around : List Frame) : Token → Option Demand
  | .null => some (.ending .null around)
  | .bool b => some (.ending (.bool b) around)
  | .number n => some (.ending (.number n) around)
  | .string pieces => some (.ending (.string pieces) around)
  | .openBracket => some (.firstItem around)
  | .openBrace => some (.firstName around)
  | _ => none

/-- A token behind a complete value. -/
def endValue (value : Tree) : List Frame → Token → Option Demand
  | .array items :: around, .comma => some (.start (.array (value :: items) :: around))
  | .array items :: around, .closeBracket =>
    some (.ending (.array (value :: items).reverse) around)
  | .object fields name :: around, .comma => some (.nextName ((name, value) :: fields) around)
  | .object fields name :: around, .closeBrace =>
    some (.ending (.object ((name, value) :: fields).reverse) around)
  | _, _ => none

def Demand.step : Demand → Token → Option Demand
  | .start around, token => startValue around token
  | .firstItem around, .closeBracket => some (.ending (.array []) around)
  | .firstItem around, token => startValue (.array [] :: around) token
  | .firstName around, .closeBrace => some (.ending (.object []) around)
  | .firstName around, .string pieces => some (.colonAfter [] pieces around)
  | .firstName _, _ => none
  | .nextName fields around, .string pieces => some (.colonAfter fields pieces around)
  | .nextName _ _, _ => none
  | .colonAfter fields name around, .colon => some (.start (.object fields name :: around))
  | .colonAfter _ _ _, _ => none
  | .ending value around, token => endValue value around token

/-- The value that is complete when all tokens are read, if they are those of one value. -/
def Demand.run : Demand → List Token → Option Tree
  | .ending value [], [] => some value
  | _, [] => none
  | demand, token :: tokens => (demand.step token).bind fun next => next.run tokens

namespace Tree

/-- The tree of a whole text. -/
def parse? (text : String) : Option Tree :=
  (tokens? text.toList).bind (Demand.start []).run

mutual

/-- The document of a tree whose arrays and objects are nested at most so deep. -/
def toJson? : Nat → Tree → Option Json
  | _, .null => some .null
  | _, .bool b => some (.bool b)
  | _, .number n => n.value?.map .number
  | _, .string pieces => (piecesString? pieces).map .string
  | 0, .array _ => none
  | depth + 1, .array items => (itemsJson? depth items).map .array
  | 0, .object _ => none
  | depth + 1, .object fields => (fieldsJson? depth fields).map .ofFields

def itemsJson? : Nat → List Tree → Option (List Json)
  | _, [] => some []
  | depth, item :: rest => do
    let item ← toJson? depth item
    let rest ← itemsJson? depth rest
    return item :: rest

def fieldsJson? : Nat → List (List Piece × Tree) → Option (List (String × Json))
  | _, [] => some []
  | depth, (name, value) :: rest => do
    let name ← piecesString? name
    let value ← toJson? depth value
    let rest ← fieldsJson? depth rest
    return (name, value) :: rest

end

end Tree

/-- How deep arrays and objects may be nested in a document. -/
def depthLimit : Nat := 127

/-- The document of a whole text. -/
def parse? (text : String) : Option Json :=
  (Tree.parse? text).bind (Tree.toJson? depthLimit)

end ChainExpr.Json
