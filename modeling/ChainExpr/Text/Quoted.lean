import ChainExpr.Text.Hidden

namespace ChainExpr.Text

/-- The code point in braces, in hexadecimal digits without leading zeros. -/
def codePoint (c : Char) : List Char :=
  ['\\', 'u', '\x7b'] ++ Nat.toDigits 16 c.toNat ++ ['\x7d']

/-- Quotes, backslashes and hidden characters are escaped. -/
def quotedChar (c : Char) : List Char :=
  if c = '"' then ['\\', '"']
  else if c = '\\' then ['\\', '\\']
  else if c = '\n' then ['\\', 'n']
  else if c = '\r' then ['\\', 'r']
  else if c = '\t' then ['\\', 't']
  else if c = '\x00' then ['\\', '0']
  else if isHidden c then codePoint c
  else [c]

/-- A string between quotes. -/
def quoted (s : String) : String :=
  .ofList ('"' :: (s.toList.flatMap quotedChar ++ ['"']))

/-- Items between brackets. -/
def bracketed (items : List String) : String := "[" ++ ", ".intercalate items ++ "]"

/-- Quoted strings between brackets. -/
def quotedList (names : List String) : String := bracketed (names.map quoted)

/-- A named record with its fields. -/
def record (name : String) (fields : List (String × String)) : String :=
  name ++ " \x7b " ++ ", ".intercalate (fields.map fun (field, text) => field ++ ": " ++ text) ++
    " \x7d"

/-- An optional item. -/
def optional : Option String → String
  | none => "None"
  | some text => "Some(" ++ text ++ ")"

end ChainExpr.Text
