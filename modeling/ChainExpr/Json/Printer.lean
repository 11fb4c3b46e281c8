import ChainExpr.Json.Basic
import ChainExpr.Number.Text
import ChainExpr.Text.Hex

namespace ChainExpr

namespace JsonNumber

/-- Numbers that are not integers keep a point or an exponent: `1.0`, `1e-7`, `1e+16`. -/
def style : Number.Style where
  tie := .toEven
  wholeTail := ['.', '0']
  positional := fun point => decide (-5 < point ∧ point ≤ 16)

/-- There is no numeral for infinity and for what is not a number. -/
def chars : JsonNumber → List Char
  | .integer n => Number.integerChars n
  | .float x =>
    if Number.rank x < Number.infinityRank then style.chars x else ['n', 'u', 'l', 'l']

end JsonNumber

namespace Json

/-- Only a quote, a backslash and the characters below the blank are escaped. -/
def escapeChar (c : Char) : List Char :=
  if c = '"' then ['\\', '"']
  else if c = '\\' then ['\\', '\\']
  else if c = '\x08' then ['\\', 'b']
  else if c = '\x0c' then ['\\', 'f']
  else if c = '\n' then ['\\', 'n']
  else if c = '\r' then ['\\', 'r']
  else if c = '\t' then ['\\', 't']
  else if c.toNat < 0x20 then
    ['\\', 'u'] ++ Text.hexDigits c.toNat 4
  else [c]

def stringChars (s : String) : List Char :=
  '"' :: (s.toList.flatMap escapeChar ++ ['"'])

mutual

def chars : Json → List Char
  | .null => ['n', 'u', 'l', 'l']
  | .bool true => ['t', 'r', 'u', 'e']
  | .bool false => ['f', 'a', 'l', 's', 'e']
  | .number n => n.chars
  | .string s => stringChars s
  | .array [] => ['[', ']']
  | .array (item :: rest) => '[' :: (chars item ++ itemsChars rest)
  | .object [] => ['\x7b', '\x7d']
  | .object ((name, value) :: rest) =>
    '\x7b' :: (stringChars name ++ ':' :: (chars value ++ fieldsChars rest))

/-- The items after the first one, with the closing bracket. -/
def itemsChars : List Json → List Char
  | [] => [']']
  | item :: rest => ',' :: (chars item ++ itemsChars rest)

/-- The fields after the first one, with the closing brace. -/
def fieldsChars : List (String × Json) → List Char
  | [] => ['\x7d']
  | (name, value) :: rest =>
    ',' :: (stringChars name ++ ':' :: (chars value ++ fieldsChars rest))

end

/-- The compact text of a document. -/
def text (json : Json) : String := .ofList json.chars

end Json

end ChainExpr
