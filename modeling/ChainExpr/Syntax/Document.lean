import ChainExpr.Json.Basic
import ChainExpr.Syntax.Node

namespace ChainExpr

namespace Literal

def ofJson? : Json → Option Literal
  | .null => some .null
  | .bool b => some (.boolean b)
  | .number n => some (.number n.toFloat)
  | .string s => some (.string s)
  | .array _ | .object _ => none

/-- The document of a literal. A whole number is written as a number that need not be whole. -/
def toJson : Literal → Json
  | .null => .null
  | .boolean b => .bool b
  | .number x => .number (.float x)
  | .string s => .string s

end Literal

namespace Node

mutual

/-- The node of a document, or the first fragment of it that has no shape of a node. -/
def ofJson : Json → Except Json Node
  | .null => .ok (.literal .null)
  | .bool b => .ok (.literal (.boolean b))
  | .number n => .ok (.literal (.number n.toFloat))
  | .string s => .ok (.literal (.string s))
  | .array items => .error (.array items)
  | .object fields =>
    match fields.lookup "type" with
    | some (.string "expression") => (chainField (.object fields) fields).map .expression
    | some (.string "partial") => (chainField (.object fields) fields).map .deferred
    | some (.string "function") =>
      match fields.lookup "name" with
      | some (.string name) => .ok (.reference name)
      | _ => .error (.object fields)
    | _ => .error (.object fields)

/-- The links under `chain`. Without an array there, the whole node is at fault. -/
def chainField (node : Json) : List (String × Json) → Except Json Chain
  | [] => .error node
  | (name, value) :: rest =>
    if name = "chain" then
      match value with
      | .array links => linksOfJson links
      | _ => .error node
    else chainField node rest

def linksOfJson : List Json → Except Json Chain
  | [] => .ok []
  | link :: rest => do
    let link ← linkOfJson link
    let rest ← linksOfJson rest
    return link :: rest

/-- One link: the name of its function, then its arguments. -/
def linkOfJson : Json → Except Json Link
  | .object fields =>
    match fields.lookup "function" with
    | some (.string function) => do return ⟨function, ← argumentsField fields⟩
    | _ => .error (.object fields)
  | document => .error document

/-- The arguments under `arguments`. There are none if the field is missing or null. -/
def argumentsField : List (String × Json) → Except Json (List (String × List Node))
  | [] => .ok []
  | (name, value) :: rest =>
    if name = "arguments" then
      match value with
      | .null => .ok []
      | .object arguments => argumentsOfJson arguments
      | document => .error document
    else argumentsField rest

def argumentsOfJson : List (String × Json) → Except Json (List (String × List Node))
  | [] => .ok []
  | (name, .array values) :: rest => do
    let values ← valuesOfJson values
    let rest ← argumentsOfJson rest
    return (name, values) :: rest
  | (_, document) :: _ => .error document

def valuesOfJson : List Json → Except Json (List Node)
  | [] => .ok []
  | value :: rest => do
    let value ← ofJson value
    let rest ← valuesOfJson rest
    return value :: rest

end

end Node

end ChainExpr
