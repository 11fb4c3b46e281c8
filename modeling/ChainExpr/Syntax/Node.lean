import ChainExpr.OrderedMap

namespace ChainExpr

inductive Literal
  | null
  | boolean (b : Bool)
  | number (x : Float)
  | string (s : String)
deriving Inhabited

namespace Literal

/-- Literals of one kind are compared by their contents, numbers as numbers. -/
protected def beq : Literal → Literal → Bool
  | .null, .null => true
  | .boolean a, .boolean b => a == b
  | .number a, .number b => a == b
  | .string a, .string b => a == b
  | _, _ => false

instance : BEq Literal := ⟨Literal.beq⟩

end Literal

/-- One call of a chain, over the nodes that its arguments are made of. Every argument has a list of
values; the function's declaration decides how many of them count. -/
structure LinkOf (ν : Type) where
  function : String
  arguments : List (String × List ν)

inductive Node
  /-- A chain that is run. -/
  | expression (chain : List (LinkOf Node))
  /-- A chain that becomes a function value. -/
  | deferred (chain : List (LinkOf Node))
  /-- The name of a function, not called. -/
  | reference (name : String)
  | literal (value : Literal)
deriving Inhabited

abbrev Link := LinkOf Node

/-- The links of a chain, each run on the result of the one before. -/
abbrev Chain := List Link

namespace LinkOf

/-- Gives an argument more values behind those it has. -/
def argument {ν : Type} (link : LinkOf ν) (name : String) (values : List ν) : LinkOf ν :=
  { link with arguments := Entries.extend name values link.arguments }

end LinkOf

namespace Chain

/-- The function a chain starts with. -/
def head? (chain : Chain) : Option String := (List.head? chain).map (·.function)

end Chain

namespace Node

/-- What a node is called in the documents it is read from. -/
def kind : Node → String
  | .expression _ => "expression"
  | .deferred _ => "partial"
  | .reference _ => "function"
  | .literal .null => "null"
  | .literal (.boolean _) => "boolean"
  | .literal (.number _) => "number"
  | .literal (.string _) => "string"

mutual

/-- Equality of nodes. The order of a link's arguments does not count, that of an argument's values
does. -/
protected def beq : Node → Node → Bool
  | .expression a, .expression b => beqChain a b
  | .deferred a, .deferred b => beqChain a b
  | .reference a, .reference b => a == b
  | .literal a, .literal b => a == b
  | _, _ => false
termination_by structural node => node

def beqChain : List (LinkOf Node) → List (LinkOf Node) → Bool
  | [], [] => true
  | ⟨f, arguments⟩ :: as, b :: bs =>
    f == b.function && arguments.length == b.arguments.length &&
      beqArguments arguments b.arguments && beqChain as bs
  | _, _ => false
termination_by structural chain => chain

/-- Whether every argument on the left has equal values on the right. -/
def beqArguments : List (String × List Node) → List (String × List Node) → Bool
  | [], _ => true
  | (name, values) :: rest, others =>
    (match others.lookup name with
      | some values' => beqNodes values values'
      | none => false) && beqArguments rest others
termination_by structural arguments => arguments

def beqNodes : List Node → List Node → Bool
  | [], [] => true
  | a :: as, b :: bs => Node.beq a b && beqNodes as bs
  | _, _ => false
termination_by structural nodes => nodes

end

instance : BEq Node := ⟨Node.beq⟩

end Node

end ChainExpr
